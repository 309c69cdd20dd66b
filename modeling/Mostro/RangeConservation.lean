import Mostro.CapturedFunds

set_option autoImplicit false

/-!
The maker bond of a range order is shared by its slices: what the slices take and what the close
refunds add up to the bond, as long as no slice is computed from a running total that has fallen
behind the stored slices.
-/

namespace Mostro

open Interleaving SqlTable

def Bond.isRefundOf (b : Bond) (parent : Uuid) : Bool :=
  b.parentBondId == some parent && b.childOrderId.isNone

def refundTotal (bonds : List Bond) (parent : Uuid) : Int :=
  ((bonds.filter (·.isRefundOf parent)).map (·.amountSats)).sum

def Bond.isSliceRow (b : Bond) (parent slice : Uuid) : Bool :=
  b.parentBondId == some parent && b.childOrderId == some slice

/-- One row for each slice, slices within the bond, at most one close and one refund, and after
the close nothing of the bond is left over or made up. -/
structure RangeConserved (s : State) : Prop where
  slices : ∀ parent slice, (s.bonds.filter (·.isSliceRow parent slice)).length ≤ 1
  total : ∀ q ∈ s.bonds, q.parentBondId = none → sliceTotal s.bonds q.id ≤ q.amountSats
  closes : s.closes.Nodup
  refunds : ∀ parent, (s.bonds.filter (·.isRefundOf parent)).length ≤ 1
  whole : ∀ q ∈ s.bonds, q.id ∈ s.closes →
    sliceTotal s.bonds q.id + refundTotal s.bonds q.id = q.amountSats

structure RangeInv (s : State) : Prop extends RangeConserved s where
  ids : (s.bonds.map (·.id)).Nodup
  ids_lt : ∀ b ∈ s.bonds, b.id < s.nextId
  closes_lt : ∀ p ∈ s.closes, p < s.nextId
  parents_lt : ∀ b ∈ s.bonds, ∀ p, b.parentBondId = some p → p < s.nextId
  children : ∀ b ∈ s.bonds, b.parentBondId ≠ none → b.state.isActive = false
  closed : ∀ q ∈ s.bonds, q.id ∈ s.closes → q.state.isActive = false
  unrefunded : ∀ p, p ∉ s.closes → s.bonds.filter (·.isRefundOf p) = []

section

variable {f : Bond → Bond} {bonds : List Bond}

theorem filter_map_core {P : Bond → Bool} (hf : ∀ b ∈ bonds, b.SameCore (f b))
    (hP : ∀ b r, b.SameCore r → P r = P b) : (bonds.map f).filter P = (bonds.filter P).map f := by
  rw [List.filter_map]
  congr 1
  exact List.filter_congr fun b hb => hP b (f b) (hf b hb)

theorem amounts_map_core {P : Bond → Bool} (hf : ∀ b ∈ bonds, b.SameCore (f b))
    (hP : ∀ b r, b.SameCore r → P r = P b) :
    ((bonds.map f).filter P).map (·.amountSats) = (bonds.filter P).map (·.amountSats) := by
  rw [filter_map_core hf hP,List.map_map]
  exact List.map_congr_left fun b hb => (hf b (List.mem_of_mem_filter hb)).amountSats

theorem isSliceRow_core (parent slice : Uuid) (b r : Bond) (h : b.SameCore r) :
    r.isSliceRow parent slice = b.isSliceRow parent slice := by
  simp only [Bond.isSliceRow,h.parentBondId,h.childOrderId]

theorem isRefundOf_core (parent : Uuid) (b r : Bond) (h : b.SameCore r) :
    r.isRefundOf parent = b.isRefundOf parent := by
  simp only [Bond.isRefundOf,h.parentBondId,h.childOrderId]

theorem isSliceOf_core (parent : Uuid) (b r : Bond) (h : b.SameCore r) :
    r.isSliceOf parent = b.isSliceOf parent := by
  simp only [Bond.isSliceOf,h.parentBondId,h.childOrderId]

theorem sliceTotal_map (hf : ∀ b ∈ bonds, b.SameCore (f b)) (parent : Uuid) :
    sliceTotal (bonds.map f) parent = sliceTotal bonds parent := by
  rw [sliceTotal,amounts_map_core hf (isSliceOf_core parent),sliceTotal]

theorem refundTotal_map (hf : ∀ b ∈ bonds, b.SameCore (f b)) (parent : Uuid) :
    refundTotal (bonds.map f) parent = refundTotal bonds parent := by
  rw [refundTotal,amounts_map_core hf (isRefundOf_core parent),refundTotal]

theorem sliceTotal_append (bonds : List Bond) (r : Bond) (parent : Uuid) :
    sliceTotal (bonds ++ [r]) parent
      = sliceTotal bonds parent + if r.isSliceOf parent then r.amountSats else 0 := by
  simp only [sliceTotal,List.filter_append,List.map_append,List.sum_append]
  by_cases h : r.isSliceOf parent = true <;> simp [h]

theorem refundTotal_append (bonds : List Bond) (r : Bond) (parent : Uuid) :
    refundTotal (bonds ++ [r]) parent
      = refundTotal bonds parent + if r.isRefundOf parent then r.amountSats else 0 := by
  simp only [refundTotal,List.filter_append,List.map_append,List.sum_append]
  by_cases h : r.isRefundOf parent = true <;> simp [h]

end

theorem RangeInv.rewrite {s s' : State} {f : Bond → Bond} (h : RangeInv s)
    (hf : ∀ b ∈ s.bonds, b.Becomes (f b)) (hb : s'.bonds = s.bonds.map f)
    (hc : s'.closes = s.closes) (hn : s.nextId ≤ s'.nextId) : RangeInv s' := by
  have hcore : ∀ b ∈ s.bonds, b.SameCore (f b) := fun b hbm => (hf b hbm).1
  have hrow : ∀ {P : Bond → Prop}, (∀ b ∈ s.bonds, P (f b)) → ∀ r ∈ s'.bonds, P r := by
    intro P hP r hr
    rw [hb] at hr
    obtain ⟨b,hbm,rfl⟩ := List.mem_map.mp hr
    exact hP b hbm
  refine ⟨⟨?_,?_,?_,?_,?_⟩,?_,?_,?_,?_,?_,?_,?_⟩
  · intro parent slice
    rw [hb,filter_map_core hcore (isSliceRow_core parent slice),List.length_map]
    exact h.slices parent slice
  · refine hrow fun b hbm hp => ?_
    rw [hb,sliceTotal_map hcore,(hcore b hbm).id,(hcore b hbm).amountSats]
    exact h.total b hbm ((hcore b hbm).parentBondId.symm.trans hp)
  · rw [hc]
    exact h.closes
  · intro parent
    rw [hb,filter_map_core hcore (isRefundOf_core parent),List.length_map]
    exact h.refunds parent
  · refine hrow fun b hbm hp => ?_
    rw [(hcore b hbm).id] at hp ⊢
    rw [hb,sliceTotal_map hcore,refundTotal_map hcore,(hcore b hbm).amountSats]
    exact h.whole b hbm (hc ▸ hp)
  · have hids : (s.bonds.map f).map (·.id) = s.bonds.map (·.id) := by
      rw [List.map_map]
      exact List.map_congr_left fun b hbm => (hcore b hbm).id
    rw [hb,hids]
    exact h.ids
  · exact hrow fun b hbm => (hcore b hbm).id ▸ lt_of_lt_of_le (h.ids_lt b hbm) hn
  · exact fun p hp => lt_of_lt_of_le (h.closes_lt p (hc ▸ hp)) hn
  · refine hrow fun b hbm p hp => ?_
    exact lt_of_lt_of_le (h.parents_lt b hbm p ((hcore b hbm).parentBondId.symm.trans hp)) hn
  · refine hrow fun b hbm hp => (hf b hbm).2.2 (h.children b hbm ?_)
    rwa [(hcore b hbm).parentBondId] at hp
  · refine hrow fun b hbm hp => (hf b hbm).2.2 (h.closed b hbm ?_)
    rwa [(hcore b hbm).id,hc] at hp
  · intro p hp
    rw [hb,filter_map_core hcore (isRefundOf_core p),h.unrefunded p (hc ▸ hp)]
    rfl

theorem nodup_ids_append {bonds : List Bond} {r : Bond} {n : Nat}
    (h : (bonds.map (·.id)).Nodup) (hlt : ∀ b ∈ bonds, b.id < n) (hr : r.id = n) :
    ((bonds ++ [r]).map (·.id)).Nodup := by
  rw [List.map_append]
  refine List.nodup_append.mpr ⟨h,by simp,fun x hx y hy => ?_⟩
  obtain ⟨b,hb,rfl⟩ := List.mem_map.mp hx
  have hy : y = r.id := by simpa using hy
  rw [hy,hr]
  exact Nat.ne_of_lt (hlt b hb)

theorem sliceTotal_eq_zero {bonds : List Bond} {n : Uuid}
    (h : ∀ b ∈ bonds, ∀ p, b.parentBondId = some p → p < n) : sliceTotal bonds n = 0 := by
  have hnil : bonds.filter (·.isSliceOf n) = [] := by
    refine List.filter_eq_nil_iff.mpr fun b hb hs => ?_
    have hp : b.parentBondId = some n := by simpa using (Bool.and_eq_true_iff.mp hs).1
    exact Nat.lt_irrefl n (h b hb n hp)
  rw [sliceTotal,hnil]
  rfl

structure RangeInsert (s : State) (r : Bond) : Prop where
  id : r.id = s.nextId
  own : r.parentBondId = none → 0 ≤ r.amountSats
  slice : ∀ p, r.parentBondId = some p → p < s.nextId ∧ p ∉ s.closes ∧ r.state.isActive = false ∧
    ∃ slice, r.childOrderId = some slice ∧ s.bonds.filter (·.isSliceRow p slice) = [] ∧
      ∀ q ∈ s.bonds, q.id = p → sliceTotal s.bonds p + r.amountSats ≤ q.amountSats

theorem RangeInsert.not_refund {s : State} {r : Bond} (h : RangeInsert s r) (p : Uuid) :
    r.isRefundOf p = false := by
  cases hp : r.parentBondId with
  | none => simp [Bond.isRefundOf,hp]
  | some x =>
    obtain ⟨_,_,_,slice,hs,_⟩ := h.slice x hp
    simp [Bond.isRefundOf,hs]

theorem Bond.parent_of_isSliceOf {r : Bond} {p : Uuid} (hs : r.isSliceOf p = true) :
    r.parentBondId = some p := by simpa using (Bool.and_eq_true_iff.mp hs).1

theorem forall_mem_append_row {P : Bond → Prop} {bonds : List Bond} {r : Bond}
    (h : ∀ b ∈ bonds, P b) (hr : P r) : ∀ b ∈ bonds ++ [r], P b :=
  List.forall_mem_append.mpr ⟨h,List.forall_mem_singleton.mpr hr⟩

theorem RangeInv.insert {s s' : State} {r : Bond} (h : RangeInv s) (hr : RangeInsert s r)
    (hb : s'.bonds = s.bonds ++ [r]) (hc : s'.closes = s.closes) (hn : s'.nextId = s.nextId + 1) :
    RangeInv s' := by
  have hrow : ∀ {P : Bond → Prop}, (∀ b ∈ s.bonds, P b) → P r → ∀ b ∈ s'.bonds, P b :=
    fun hP hr => hb ▸ forall_mem_append_row hP hr
  have hrefund : ∀ p, s'.bonds.filter (·.isRefundOf p) = s.bonds.filter (·.isRefundOf p) := by
    intro p
    rw [hb,List.filter_append]
    simp [hr.not_refund p]
  have hnew : r.id ∉ s.closes := fun hmem => by
    rw [hr.id] at hmem
    exact Nat.lt_irrefl _ (h.closes_lt _ hmem)
  have hlt : s.nextId < s'.nextId := hn ▸ Nat.lt_succ_self _
  refine ⟨⟨?_,?_,hc ▸ h.closes,?_,?_⟩,?_,?_,?_,?_,?_,?_,?_⟩
  · intro parent slice
    rw [hb,List.filter_append,List.length_append]
    by_cases hs : r.isSliceRow parent slice = true
    · have hcols : r.parentBondId = some parent ∧ r.childOrderId = some slice := by
        simpa [Bond.isSliceRow] using hs
      obtain ⟨_,_,_,sl,hsl,hnone,_⟩ := hr.slice parent hcols.1
      rw [hcols.2] at hsl
      cases hsl
      simp [hnone,hs]
    · simpa [hs] using h.slices parent slice
  · refine hrow (fun q hq hp => ?_) fun hp => ?_
    · rw [hb,sliceTotal_append]
      split
      next hs =>
        obtain ⟨_,_,_,_,_,_,hle⟩ := hr.slice q.id (Bond.parent_of_isSliceOf hs)
        exact hle q hq rfl
      · simpa using h.total q hq hp
    · have hzero : sliceTotal s.bonds r.id = 0 := by
        rw [hr.id]
        exact sliceTotal_eq_zero h.parents_lt
      rw [hb,sliceTotal_append,hzero]
      simp [Bond.isSliceOf,hp,hr.own hp]
  · exact fun p => by rw [hrefund]; exact h.refunds p
  · refine hrow (fun q hq hp => ?_) fun hp => absurd (hc ▸ hp) hnew
    rw [hc] at hp
    have hns : r.isSliceOf q.id = false := by
      by_contra hs
      obtain ⟨_,hopen,_⟩ := hr.slice q.id (Bond.parent_of_isSliceOf (by simpa using hs))
      exact hopen hp
    rw [hb,sliceTotal_append,refundTotal_append,hns,hr.not_refund]
    simpa using h.whole q hq hp
  · rw [hb]
    exact nodup_ids_append h.ids h.ids_lt hr.id
  · exact hrow (fun b hbm => (h.ids_lt b hbm).trans hlt) (hr.id ▸ hlt)
  · exact fun p hp => (h.closes_lt p (hc ▸ hp)).trans hlt
  · exact hrow (fun b hbm p hp => (h.parents_lt b hbm p hp).trans hlt) fun p hp =>
      (hr.slice p hp).1.trans hlt
  · refine hrow h.children fun hp => ?_
    obtain ⟨p,hp⟩ := Option.ne_none_iff_exists'.mp hp
    exact (hr.slice p hp).2.2.1
  · exact hrow (fun q hq hp => h.closed q hq (hc ▸ hp)) fun hp => absurd (hc ▸ hp) hnew
  · exact fun p hp => by rw [hrefund]; exact h.unrefunded p (hc ▸ hp)

def closeRows (q r : Bond) (bonds : List Bond) : List Bond :=
  if sliceTotal bonds q.id < q.amountSats then bonds ++ [r] else bonds

section

variable {q r : Bond} {bonds : List Bond}

theorem forall_mem_closeRows {P : Bond → Prop} (h : ∀ b ∈ bonds, P b) (hr : P r) :
    ∀ b ∈ closeRows q r bonds, P b := by
  unfold closeRows
  split
  · exact forall_mem_append_row h hr
  · exact h

theorem filter_closeRows {P : Bond → Bool} (hr : P r = false) :
    (closeRows q r bonds).filter P = bonds.filter P := by
  unfold closeRows
  split <;> simp [hr]

theorem refunds_closeRows (hpar : r.parentBondId = some q.id) (hchild : r.childOrderId = none)
    (p : Uuid) : (closeRows q r bonds).filter (·.isRefundOf p) = bonds.filter (·.isRefundOf p) ++
      if sliceTotal bonds q.id < q.amountSats ∧ p = q.id then [r] else [] := by
  by_cases hp : p = q.id
  · unfold closeRows
    split <;> simp_all [Bond.isRefundOf]
  · have hr : r.isRefundOf p = false := by simp [Bond.isRefundOf,hpar,Ne.symm hp]
    simp [filter_closeRows (P := (·.isRefundOf p)) hr,hp]

end

theorem RangeInv.close {s s' : State} {q r : Bond} (h : RangeInv s) (hq : q ∈ s.bonds)
    (hpar : q.parentBondId = none) (hstate : q.state.isActive = false) (hopen : q.id ∉ s.closes)
    (hrid : r.id = s.nextId) (hrpar : r.parentBondId = some q.id) (hrchild : r.childOrderId = none)
    (hrstate : r.state.isActive = false)
    (hramount : r.amountSats = q.amountSats - sliceTotal s.bonds q.id)
    (hb : s'.bonds = closeRows q r s.bonds) (hc : s'.closes = q.id :: s.closes)
    (hn : s'.nextId = s.nextId + 1) : RangeInv s' := by
  have hqlt := h.ids_lt q hq
  have hlt : s.nextId < s'.nextId := hn ▸ Nat.lt_succ_self _
  have hmem : ∀ {P : Bond → Prop}, (∀ b ∈ s.bonds, P b) → P r → ∀ b ∈ s'.bonds, P b :=
    fun hP hr => hb ▸ forall_mem_closeRows hP hr
  have hslices : ∀ p, sliceTotal s'.bonds p = sliceTotal s.bonds p := fun p => by
    rw [sliceTotal,hb,filter_closeRows (by simp [Bond.isSliceOf,hrchild]),sliceTotal]
  have hrefunds : ∀ p, s'.bonds.filter (·.isRefundOf p) = s.bonds.filter (·.isRefundOf p) ++
      if sliceTotal s.bonds q.id < q.amountSats ∧ p = q.id then [r] else [] :=
    hb ▸ refunds_closeRows hrpar hrchild
  have hrnew : r.id ∉ s'.closes := by
    rw [hc,hrid]
    intro hmem
    rcases List.mem_cons.mp hmem with heq | hmem
    · exact Nat.lt_irrefl _ (heq ▸ hqlt)
    · exact Nat.lt_irrefl _ (h.closes_lt _ hmem)
  -- a closed bond is the one closed now, or was closed before
  have hclosed : ∀ {P : Bond → Prop}, P q → (∀ b ∈ s.bonds, b.id ≠ q.id → b.id ∈ s.closes → P b) →
      ∀ b ∈ s'.bonds, b.id ∈ s'.closes → P b := by
    refine fun hPq hP => hmem (fun b hbm hp => ?_) fun hp => absurd hp hrnew
    by_cases hbq : b.id = q.id
    · rwa [List.inj_on_of_nodup_map h.ids hbm hq hbq]
    · exact hP b hbm hbq ((List.mem_cons.mp (hc ▸ hp)).resolve_left hbq)
  refine ⟨⟨?_,?_,?_,?_,?_⟩,?_,?_,?_,?_,?_,?_,?_⟩
  · intro parent slice
    rw [hb,filter_closeRows (by simp [Bond.isSliceRow,hrchild])]
    exact h.slices parent slice
  · refine hmem (fun b hbm hp => ?_) fun hp => nomatch hrpar.symm.trans hp
    rw [hslices]
    exact h.total b hbm hp
  · rw [hc]
    exact List.nodup_cons.mpr ⟨hopen,h.closes⟩
  · intro parent
    rw [hrefunds]
    by_cases hp : parent = q.id
    · subst hp
      rw [h.unrefunded _ hopen]
      split <;> simp
    · simpa [hp] using h.refunds parent
  · refine hclosed ?_ fun b hbm hbq hp => ?_
    · rw [hslices,refundTotal,hrefunds,h.unrefunded _ hopen]
      have htotal := h.total q hq hpar
      by_cases hrest : sliceTotal s.bonds q.id < q.amountSats
      · simp [hrest,hramount]
      · simp only [hrest,false_and,if_false,List.append_nil,List.map_nil,List.sum_nil]
        omega
    · rw [hslices,refundTotal,hrefunds]
      simpa [hbq,refundTotal] using h.whole b hbm hp
  · rw [hb,closeRows]
    split
    · exact nodup_ids_append h.ids h.ids_lt hrid
    · exact h.ids
  · exact hmem (fun b hbm => (h.ids_lt b hbm).trans hlt) (hrid ▸ hlt)
  · intro p hp
    rw [hc] at hp
    rcases List.mem_cons.mp hp with rfl | hp
    · exact hqlt.trans hlt
    · exact (h.closes_lt p hp).trans hlt
  · refine hmem (fun b hbm p hp => (h.parents_lt b hbm p hp).trans hlt) fun p hp => ?_
    rw [hrpar] at hp
    cases hp
    exact hqlt.trans hlt
  · exact hmem h.children fun _ => hrstate
  · exact hclosed hstate fun b hbm _ hp => h.closed b hbm hp
  · intro p hp
    rw [hc,List.mem_cons,not_or] at hp
    rw [hrefunds,h.unrefunded p hp.2]
    simp [hp.1]

def rangeNeed (Γ : Set Fact) : Op → Prop
  | .bond (.create b) => b.parentBondId = none ∧ 0 ≤ b.amountSats
  | .bond (.run (.update read row)) =>
      .bond read ∈ Γ ∧ ∃ t, row = { read with state := .released, releasedAt := t }
  | .bond (.insertSliceSlash v) => .bond v.parent ∈ Γ ∧
      v.amountSats = sliceSlashAmount v.parent v.slice.fiatAmount v.maxFiat
  | .bond (.closeRange v) => .bond v.parent ∈ Γ
  | _ => True

theorem rangeNeed_mono {Γ Γ' : Set Fact} {op : Op} (hΓ : Γ ⊆ Γ') (h : rangeNeed Γ op) :
    rangeNeed Γ' op := by
  unfold rangeNeed at h ⊢
  split at h
  · exact h
  · exact ⟨hΓ h.1,h.2⟩
  · exact ⟨hΓ h.1,h.2⟩
  · exact hΓ h
  · trivial

def rangeDiscipline : Discipline Op Op.Res Fact where
  need := rangeNeed
  need_mono := rangeNeed_mono
  answers := Op.answers
  learn := Op.learn

def BondKept (s : State) : Fact → Prop
  | .bond b => ∃ r ∈ s.bonds, b.Becomes r
  | _ => True

theorem BondKept.progress {s s' : State} {f : Fact} (hb : BondsProgress s s')
    (h : BondKept s f) : BondKept s' f := by
  cases f with
  | bond b =>
    obtain ⟨r,hr,hbr⟩ := h
    obtain ⟨r',hr',hb'⟩ := hb r hr
    exact ⟨r',hr',hbr.trans hb'⟩
  | _ => trivial

/-- Every slice that is inserted was computed from a running total that covers the stored slices,
or its share of the whole bond still fits beside them. -/
def freshTotals (L : Type) : System.Demand State L Op Choice Env := .check
  (fun _ op _ _ s => match op with
    | .bond (.insertSliceSlash v) =>
      !v.allowed s.bonds || decide (sliceTotal s.bonds v.parent.id ≤ v.parent.slashedShareSats)
        || decide (sliceTotal s.bonds v.parent.id +
          proportionalShare v.parent.amountSats v.slice.fiatAmount v.maxFiat
            ≤ v.parent.amountSats)
    | _ => true)
  (fun _ _ _ => true)

instance (L : Type) : (freshTotals L).Checkable :=
  inferInstanceAs (System.Demand.check _ _).Checkable

theorem sliceSlashAmount_fits {parent : Bond} {fiat maxFiat total : Int}
    (h : total ≤ parent.amountSats)
    (hfresh : total ≤ parent.slashedShareSats ∨
      total + proportionalShare parent.amountSats fiat maxFiat ≤ parent.amountSats) :
    total + sliceSlashAmount parent fiat maxFiat ≤ parent.amountSats := by
  unfold sliceSlashAmount
  dsimp only
  omega

section

variable {Γ : Set Fact} {s : State} {st : BondStmt}

theorem RangeInv.stored (h : RangeInv s) {b r : Bond} (hb : BondKept s (.bond b))
    (hr : r ∈ s.bonds) (hid : r.id = b.id) : b.Becomes r := by
  obtain ⟨r',hr',hbec⟩ := hb
  rwa [List.inj_on_of_nodup_map h.ids hr hr' (hid.trans hbec.1.id.symm)]

theorem RangeInv.rewrite_becomes (h : RangeInv s) (hn : rangeNeed Γ (.bond st))
    (hΓ : ∀ f ∈ Γ, BondKept s f) {b : Bond} (hb : b ∈ s.bonds) :
    b.Becomes (st.rewrite s b) := by
  cases st with
  | run u =>
    simp only [BondStmt.rewrite]
    split
    next hsel =>
      refine bondUpdate_becomes hsel ?_
      rintro read row rfl
      obtain ⟨hread,t,rfl⟩ := hn
      exact ⟨(h.stored (hΓ _ hread) hb (bondUpdate_id hsel)).1,t,rfl⟩
    · exact .rfl
  | closeRange v =>
    simp only [BondStmt.rewrite]
    split
    · exact v.keepRow_becomes b
    · exact .rfl
  | _ => exact .rfl

theorem RangeInv.bondsProgress (h : RangeInv s) (hn : rangeNeed Γ (.bond st))
    (hΓ : ∀ f ∈ Γ, BondKept s f) : BondsProgress s (st.exec s).1 := by
  intro b hb
  refine ⟨st.rewrite s b,?_,h.rewrite_becomes hn hΓ hb⟩
  rw [bondStmt_bonds]
  exact List.mem_append_left _ (List.mem_map_of_mem hb)

theorem RangeInv.locked (h : RangeInv s) {p : Uuid}
    (hl : (s.bonds.any fun b => b.id == p && b.state == .locked) = true) :
    ∃ q ∈ s.bonds, q.id = p ∧ q.state = .locked ∧ q.parentBondId = none ∧ q.id ∉ s.closes := by
  obtain ⟨q,hq,hb⟩ := List.any_eq_true.mp hl
  simp only [Bool.and_eq_true,beq_iff_eq] at hb
  refine ⟨q,hq,hb.1,hb.2,?_,fun hmem => ?_⟩
  · by_contra hp
    have := h.children q hq hp
    simp [hb.2,BondState.isActive] at this
  · have := h.closed q hq hmem
    simp [hb.2,BondState.isActive] at this

theorem RangeInv.insertSlice (h : RangeInv s) {v : SliceSlash} (hv : .bond v.parent ∈ Γ)
    (hamount : v.amountSats = sliceSlashAmount v.parent v.slice.fiatAmount v.maxFiat)
    (hΓ : ∀ f ∈ Γ, BondKept s f) (hallow : v.allowed s.bonds = true)
    (hfresh : sliceTotal s.bonds v.parent.id ≤ v.parent.slashedShareSats ∨
      sliceTotal s.bonds v.parent.id +
        proportionalShare v.parent.amountSats v.slice.fiatAmount v.maxFiat
          ≤ v.parent.amountSats) : RangeInsert s (v.row s.nextId) := by
  obtain ⟨hnone,hlock⟩ := Bool.and_eq_true_iff.mp hallow
  obtain ⟨q,hq,hid,_,hown,hopen⟩ := h.locked hlock
  refine ⟨rfl,nofun,fun p hp => ?_⟩
  cases hp
  refine ⟨hid ▸ h.ids_lt q hq,hid ▸ hopen,rfl,v.slice.id,rfl,?_,fun r hr hrid => ?_⟩
  · refine List.filter_eq_nil_iff.mpr fun b hb hs => ?_
    rw [Bool.not_eq_true',List.any_eq_false] at hnone
    exact hnone b hb hs
  · obtain rfl : r = q := List.inj_on_of_nodup_map h.ids hr hq (hrid.trans hid.symm)
    have hbec := h.stored (hΓ _ hv) hr hrid
    have htotal := h.total r hr hown
    rw [hid,hbec.1.amountSats] at htotal
    rw [hbec.1.amountSats]
    show _ + v.amountSats ≤ _
    rw [hamount]
    exact sliceSlashAmount_fits htotal hfresh

theorem rangeInv_bondStmt (h : RangeInv s) (hn : rangeNeed Γ (.bond st))
    (hΓ : ∀ f ∈ Γ, BondKept s f)
    (hfresh : ∀ v, st = .insertSliceSlash v → v.allowed s.bonds = true →
      sliceTotal s.bonds v.parent.id ≤ v.parent.slashedShareSats ∨
      sliceTotal s.bonds v.parent.id +
        proportionalShare v.parent.amountSats v.slice.fiatAmount v.maxFiat
          ≤ v.parent.amountSats) : RangeInv (st.exec s).1 := by
  cases st with
  | create b =>
    have hins : RangeInsert s { b with id := s.nextId } :=
      ⟨rfl,fun _ => hn.2,fun p hp => nomatch hn.1.symm.trans hp⟩
    exact h.insert hins rfl rfl rfl
  | run u =>
    have hf : ∀ b ∈ s.bonds, b.Becomes ((BondStmt.run u).rewrite s b) :=
      fun b hb => h.rewrite_becomes hn hΓ hb
    refine h.rewrite hf ?_ rfl le_rfl
    rw [bondStmt_bonds]
    exact List.append_nil _
  | insertSliceSlash v =>
    simp only [BondStmt.exec]
    split
    next hallow =>
      exact h.insert (h.insertSlice hn.1 hn.2 hΓ hallow (hfresh v rfl hallow)) rfl rfl rfl
    · exact h
  | closeRange v =>
    simp only [BondStmt.exec]
    split
    next hlock =>
      obtain ⟨q,hq,hid,hst,hown,hopen⟩ := h.locked hlock
      have hcore := (h.stored (hΓ _ hn) hq hid).1
      -- first the rows as the close leaves them, then the refund
      have hkept : RangeInv { s with bonds := v.kept s.bonds } :=
        h.rewrite (fun b _ => v.keepRow_becomes b) (v.kept_eq_map s.bonds) rfl le_rfl
      have hsame : ∀ b ∈ s.bonds, b.SameCore (v.keepRow b) := fun b _ => (v.keepRow_becomes b).1
      have htotal : sliceTotal (v.kept s.bonds) q.id = sliceTotal s.bonds q.id := by
        rw [v.kept_eq_map,sliceTotal_map hsame]
      have hle := h.total q hq hown
      have hrefund : v.refund s.bonds = q.amountSats - sliceTotal s.bonds q.id := by
        rw [RangeClose.refund,← hid,← hcore.amountSats]
        omega
      have hmem : v.keepRow q ∈ v.kept s.bonds := by
        rw [v.kept_eq_map]
        exact List.mem_map_of_mem hq
      refine hkept.close (q := v.keepRow q) (r := v.refundRow s.nextId (v.refund s.bonds)) hmem
        ((hsame q hq).parentBondId.trans hown) ?_ ((hsame q hq).id.symm ▸ hopen) rfl
        (by rw [(hsame q hq).id,hid]; rfl) rfl rfl ?_ ?_ (by rw [(hsame q hq).id,hid]) rfl
      · rw [v.keepRow_state,if_pos ⟨hid,hst⟩]
        rfl
      · rw [(hsame q hq).id,(hsame q hq).amountSats]
        exact hrefund.trans (by rw [htotal])
      · simp only [closeRows,RangeClose.rows,(hsame q hq).id,(hsame q hq).amountSats,htotal,
          hrefund,Int.sub_pos]
    · exact h

end

structure RangeDriven {L : Type} (ext : Externals) (tid : L → Nat)
    (S : System State L Op Op.Res MostroError Choice Env) : Prop where
  exec : ∀ l op ch s, S.exec l op ch s = Mostro.exec ext (tid l) op ch s
  code : ∀ l, (S.code l).Follows rangeDiscipline ∅
  launch : ∀ l s s', S.launch l s = some s' →
    ∃ spawned cancels, s' = { s with nextId := s.nextId + 1, spawned, cancels }
  env : ∀ e s s', S.env e s = some s' → Moves s e s'

theorem RangeInv.of_rows {s s' : State} (h : RangeInv s) (hb : s'.bonds = s.bonds)
    (hc : s'.closes = s.closes) (hn : s.nextId ≤ s'.nextId) : RangeInv s' :=
  h.rewrite (fun _ _ => .rfl) (hb.trans (List.map_id _).symm) hc hn

theorem orderStmt_closes (tid : Nat) (s : State) (st : OrderStmt) :
    (st.exec tid s).1.closes = s.closes := by
  cases st <;> rfl

theorem rangeInv_effect {Γ : Set Fact} {tid : Nat} {op : Op} {s s' : State} (h : RangeInv s)
    (hn : rangeNeed Γ op) (hΓ : ∀ f ∈ Γ, BondKept s f) (he : Effect tid op s s')
    (hfresh : ∀ v, op = .bond (.insertSliceSlash v) → v.allowed s.bonds = true →
      sliceTotal s.bonds v.parent.id ≤ v.parent.slashedShareSats ∨
      sliceTotal s.bonds v.parent.id +
        proportionalShare v.parent.amountSats v.slice.fiatAmount v.maxFiat
          ≤ v.parent.amountSats) : RangeInv s' ∧ BondsProgress s s' := by
  rcases he.rows with hk | ⟨st,rfl,rfl⟩ | ⟨st,rfl,rfl⟩
  · exact ⟨h.of_rows hk.bonds hk.closes hk.nextId,.of_eq hk.bonds⟩
  · exact ⟨h.of_rows (orderStmt_bonds st) (orderStmt_closes tid s st) (orderStmt_nextId tid s st),
      .of_eq (orderStmt_bonds st)⟩
  · exact ⟨rangeInv_bondStmt h hn hΓ fun v hv => hfresh v (by rw [hv]),h.bondsProgress hn hΓ⟩

theorem RangeDriven.upholds {L : Type} {ext : Externals} {tid : L → Nat}
    {S : System State L Op Op.Res MostroError Choice Env} {init : State → Prop}
    (h : RangeDriven ext tid S) (hinit : ∀ s, init s → RangeInv s) :
    S.Upholds (freshTotals L) (fun _ => rangeDiscipline) RangeInv (fun _ f s => BondKept s f)
      init where
  init := hinit
  code := h.code
  launch l s s' hi hl := by
    obtain ⟨_,_,rfl⟩ := h.launch l s s' hl
    exact ⟨hi.of_rows rfl rfl (Nat.le_succ _),fun _ _ hf => hf⟩
  op l Γ op ch ls s hn hΓ hi hd := by
    rw [h.exec]
    have he := exec_effect ext (tid l) op ch s
    obtain ⟨hinv,hprog⟩ := rangeInv_effect hi hn hΓ he fun v hv hallow => by
      subst hv
      simpa [freshTotals,System.Demand.check,hallow] using hd
    refine ⟨hinv,fun _ _ f hf => hf.progress hprog,exec_answers ext (tid l) op ch s,fun f hf => ?_⟩
    cases f with
    | bond b => exact ⟨b,exec_learn_bond hf,.rfl⟩
    | _ => trivial
  env e ls s s' hi _ he := by
    have hk := (h.env e s s' he).rowsKept
    exact ⟨hi.of_rows hk.bonds hk.closes hk.nextId,fun _ _ f hf => hf.progress (.of_eq hk.bonds)⟩

/-- One call that concerns the maker bond of a range: the slash of a slice, from the bond row it
reads first, or an attempt to close the range. -/
inductive RangeCall where
  | slash (slice root : Order) (reason : BondSlashReason) (nodeSharePct : ℚ)
  | close (order : Order)

def RangeCall.code : RangeCall → M Unit
  | .slash slice root reason nodeSharePct => do
    let parent : Option Bond ← query (.findBondByOrderAndRole root.id .maker)
    match parent with
    | some parent => do
      let _ ← recordMakerSliceSlash slice root parent reason nodeSharePct
      pure ()
    | none => pure ()
  | .close order => resolveRangeMakerBondAtClose order

/-- Any number of such calls, interleaved in any way; the task with number `n` makes the call
`calls n`. -/
def rangeCalls (ext : Externals) (calls : Nat → RangeCall) :
    System State Nat Op Op.Res MostroError Choice Env where
  exec tid := exec ext tid
  code tid := (calls tid).code
  launch tid s := if tid = s.nextId then some { s with nextId := s.nextId + 1 } else none
  coexist tid tid' := tid != tid'
  env e s := e.move s
  kills := Env.isCrash

structure RangeStart (s : State) : Prop where
  ids : (s.bonds.map (·.id)).Nodup
  ids_lt : ∀ b ∈ s.bonds, b.id < s.nextId
  amounts : ∀ b ∈ s.bonds, 0 ≤ b.amountSats
  own : ∀ b ∈ s.bonds, b.parentBondId = none
  closes : s.closes = []

theorem RangeStart.rangeInv {s : State} (h : RangeStart s) : RangeInv s := by
  have hnone : ∀ {P : Bond → Bool}, (∀ b, b.parentBondId = none → P b = false) →
      s.bonds.filter P = [] := fun hP =>
    List.filter_eq_nil_iff.mpr fun b hb => by simp [hP b (h.own b hb)]
  have hslice : ∀ p, s.bonds.filter (·.isSliceOf p) = [] := fun p =>
    hnone fun b hb => by simp [Bond.isSliceOf,hb]
  have hrefund : ∀ p, s.bonds.filter (·.isRefundOf p) = [] := fun p =>
    hnone fun b hb => by simp [Bond.isRefundOf,hb]
  refine ⟨⟨fun parent slice => ?_,fun q hq _ => ?_,by simp [h.closes],fun p => by simp [hrefund],
    by simp [h.closes]⟩,h.ids,h.ids_lt,by simp [h.closes],fun b hb p hp => ?_,fun b hb hp => ?_,
    by simp [h.closes],fun p _ => hrefund p⟩
  · rw [hnone fun b hb => by simp [Bond.isSliceRow,hb]]
    exact Nat.zero_le 1
  · rw [sliceTotal,hslice]
    exact h.amounts q hq
  · exact nomatch (h.own b hb).symm.trans hp
  · exact absurd (h.own b hb) hp

theorem recordMakerSliceSlash_range {Γ : Set Fact} {slice root : Order} {parent : Bond}
    {reason : BondSlashReason} {pct : ℚ} (hb : .bond parent ∈ Γ) :
    (recordMakerSliceSlash slice root parent reason pct).Follows rangeDiscipline Γ := by
  unfold recordMakerSliceSlash
  split
  · dsimp only
    split
    · trivial
    · refine ⟨trivial,fun now _ => ?_⟩
      cases now with
      | error e => trivial
      | ok now =>
        refine ⟨⟨.inl hb,rfl⟩,fun inserted _ => ?_⟩
        cases inserted with
        | error e => trivial
        | ok n =>
          dsimp only [Prog.bind]
          split
          · trivial
          · refine ⟨trivial,fun r _ => ?_⟩
            cases r <;> trivial
  · trivial

theorem Op.need.range {req : Request} {Γ : Set Fact} {op : Op} (h : op.need req Γ) :
    rangeNeed Γ op := by
  unfold rangeNeed
  split
  · exact ⟨h.2.1,h.2.2.2.1⟩
  · exact ⟨h.1,h.2.2.1⟩
  · exact ⟨h.1,h.2.1⟩
  · exact h.1
  · trivial

theorem Disciplined.range {req : Request} {Γ : Set Fact} {p : M Unit}
    (h : Disciplined req Γ p) : p.Follows rangeDiscipline Γ :=
  h.weaken (fun _ _ hn => hn.range) (fun _ _ hr => hr) fun _ _ => rfl

theorem rangeCall_follows (call : RangeCall) : call.code.Follows rangeDiscipline ∅ := by
  cases call with
  | slash slice root reason pct =>
    refine ⟨trivial,fun found _ => ?_⟩
    cases found with
    | error e => trivial
    | ok found =>
      cases found with
      | none => trivial
      | some parent =>
        have hb : .bond parent ∈ (∅ : Set Fact) ∪ bondsRead (some parent).toList :=
          mem_bondsRead_some
        exact (recordMakerSliceSlash_range hb).seq fun _ => trivial
  | close order =>
    have h : Disciplined (.job .reconcileStrandedMakerBonds) ∅
        (resolveRangeMakerBondAtClose order) := resolveRangeMakerBondAtClose_disciplined
    exact h.range

theorem rangeCalls_driven (ext : Externals) (calls : Nat → RangeCall) :
    RangeDriven ext id (rangeCalls ext calls) where
  exec _ _ _ _ := rfl
  code tid := rangeCall_follows (calls tid)
  launch tid s s' h := by
    simp only [rangeCalls] at h
    split at h
    · exact ⟨s.spawned,s.cancels,(Option.some.inj h).symm⟩
    · cases h
  env _ _ _ h := env_moves h

theorem daemon_rangeDriven {cfg : Settings} {ext : Externals} (hext : ext.Documented) :
    RangeDriven ext Label.tid (daemon cfg ext) where
  exec _ _ _ _ := rfl
  code l := (request_disciplined hext l.req).range
  launch _ _ _ h := (launch_eq h).imp fun _ h => ⟨_,h⟩
  env _ _ _ h := env_moves h

/-- In every run of slice slashes and closes in which no slice is computed from a running total
that has fallen behind, range bonds are conserved. -/
theorem range_bond_conserved (ext : Externals) (calls : Nat → RangeCall)
    {c : Config State Nat Op Op.Res MostroError}
    (hc : (rangeCalls ext calls).Reach (freshTotals Nat) RangeStart c) :
    RangeConserved c.shared :=
  (((rangeCalls_driven ext calls).upholds fun _ h => h.rangeInv).invariant hc).toRangeConserved

/-- The same for whole runs of the daemon. -/
theorem daemon_range_conserved {cfg : Settings} {ext : Externals} (hext : ext.Documented)
    {c : DaemonState} (hc : (daemon cfg ext).Reach (freshTotals Label) State.Initial c) :
    RangeConserved c.shared := by
  have hinit : ∀ s, State.Initial s → RangeInv s := by
    rintro s ⟨now,height,rfl⟩
    exact RangeStart.rangeInv ⟨List.nodup_nil,by simp,by simp,by simp,rfl⟩
  exact (((daemon_rangeDriven hext).upholds hinit).invariant hc).toRangeConserved

theorem resolved_range_conserved :
    ∃ c, (daemon (bondSettings .make 1000) plainExternals).Reach (freshTotals Label) State.Initial c
      ∧ c.shared.closes ≠ [] ∧ RangeConserved c.shared := by
  obtain ⟨c,hc,hclosed⟩ := reach_of_schedule (bondSettings .make 1000) plainExternals
    (freshTotals Label) resolvedRange (fun s => s.closes ≠ []) (by decide +kernel)
  exact ⟨c,hc,hclosed,daemon_range_conserved plainExternals_documented hc⟩

def bondedRange : State :=
  { nextId := 10
    bonds := [{ id := 2, orderId := 1, pubkey := 7, role := .maker, amountSats := 1001,
                state := .locked, hash := some 3, preimage := some 3 }]
    holds := [{ hash := 3, memo := .bond 1, amount := 1001, state := .accepted, paid := true }] }

theorem bondedRange_start : RangeStart bondedRange := by
  refine ⟨?_,?_,?_,?_,rfl⟩ <;> decide

def rangeOrder : Order :=
  { id := 1, kind := .sell, status := .dispute, creatorPubkey := 7, sellerPubkey := some 7,
    fiatAmount := 100, minAmount := some 100, maxAmount := some 200 }

def twoSlices : Nat → RangeCall
  | 10 => .slash rangeOrder rangeOrder .lostDispute 0
  | 12 => .slash { rangeOrder with id := 4, rangeParentId := some 1 } rangeOrder .lostDispute 0
  | _ => .close rangeOrder

/-- The first slash fails between its insert and the update of the running total. -/
theorem slices_exceed_bond :
    ∃ ext calls c, (rangeCalls ext calls).Reach System.Demand.none RangeStart c ∧
      ∃ q ∈ c.shared.bonds, q.parentBondId = none ∧
        q.amountSats < sliceTotal c.shared.bonds q.id := by
  obtain ⟨c,hc,hq⟩ := System.exists_reach_of_play
    (S := rangeCalls plainExternals twoSlices) (D := System.Demand.none)
    (P := fun c => ∃ q ∈ c.shared.bonds, q.parentBondId = none ∧
      q.amountSats < sliceTotal c.shared.bonds q.id)
    ([.start 10,.step 0 .ok,.step 0 .ok,.step 0 .ok,.step 0 .fault,.start 12,.step 0 .ok,
      .step 0 .ok,.step 0 .ok]) bondedRange_start (by decide +kernel)
  exact ⟨_,_,c,hc,hq⟩

theorem two_slices_conserved :
    ∃ c, (rangeCalls plainExternals twoSlices).Reach (freshTotals Nat) RangeStart c ∧
      c.shared.closes = [2] ∧ RangeConserved c.shared := by
  obtain ⟨c,hc,hclosed⟩ := System.exists_reach_of_play
    (S := rangeCalls plainExternals twoSlices) (D := freshTotals Nat)
    (P := fun c => c.shared.closes = [2])
    ([.start 10,.step 0 .ok,.step 0 .ok,.step 0 .ok,.step 0 .ok,.start 12,.step 0 .ok,
      .step 0 .ok,.step 0 .ok,.step 0 .ok,.start 14,.step 0 .ok,.step 0 .ok,.step 0 .ok,
      .step 0 .ok,.step 0 .ok]) bondedRange_start (by decide +kernel)
  exact ⟨c,hc,hclosed,range_bond_conserved plainExternals twoSlices hc⟩

end Mostro
