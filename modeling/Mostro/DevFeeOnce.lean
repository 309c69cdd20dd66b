import Mathlib.Data.List.Nodup
import Mostro.DevFeeCycle
import Mostro.RelyGuarantee

set_option autoImplicit false

/-!
The development fee of an order is paid at most once.  A payment that may still settle is the only
one of its order, and the order stores its hash; so the hash is given up only when the node says
that the payment failed, and a new payment is sent only after that.
-/

namespace Mostro.DevFee

open Interleaving SqlTable

variable {s s' : FeeState} {op : FeeOp} {h : Hash} {u : FeeUpdate} {order r : FeeRow}

structure PaidOnce (s : FeeState) : Prop where
  ids : (s.rows.map FeeRow.id).Nodup
  owned : ∀ a ∈ s.attempts, a.isLive = true →
    ∃ r ∈ s.rows, r.id = a.order ∧ r.devFeePaymentHash = some (.hash a.hash)
  one : ∀ id, s.attempts.countP (fun a => a.order == id && a.isLive) ≤ 1
  paid : ∀ r ∈ s.rows, r.devFeePaid = true →
    ∃ h, r.devFeePaymentHash = some (.hash h) ∧ s.settled h = true

theorem PaidOnce.initial (h : s.Initial) : PaidOnce s := by
  obtain ⟨hattempts,hids,hrows⟩ := h
  refine ⟨hids,?_,?_,fun r hr hpaid => nomatch hpaid.symm.trans (hrows r hr).1⟩
  · rw [hattempts]
    exact fun a ha => nomatch ha
  · rw [hattempts]
    exact fun _ => Nat.zero_le _

inductive Fact where
  | settled (h : Hash)
  | dead (id : Uuid) (h : Hash)
  | unsent (id : Uuid)
  | stored (id : Uuid) (h : Hash)

def Fact.Holds (s : FeeState) : Fact → Prop
  | .settled h => s.settled h = true
  | .dead id h => ∀ a ∈ s.attempts, a.order = id → a.hash = h → a.isLive = false
  | .unsent id => ∀ a ∈ s.attempts, a.order = id → a.isLive = false
  | .stored id h => (∃ r ∈ s.rows, r.id = id) ∧
      ∀ r ∈ s.rows, r.id = id → r.devFeePaymentHash = some (.hash h)

def FeeOp.Pre (s : FeeState) : FeeOp → Prop
  | .update (.resetStale _ x) => ∃ m, x = .pending m
  | .update (.markPaid _ x) => ∃ h, x = .hash h ∧ Fact.Holds s (.settled h)
  | .update (.clearFailed id x) | .update (.resetAfterTimeout id x) =>
    ∃ h, x = .hash h ∧ Fact.Holds s (.dead id h)
  | .update (.paymentSuccess id h) => Fact.Holds s (.settled h) ∧ Fact.Holds s (.stored id h)
  | .sendPayment id h => Fact.Holds s (.stored id h) ∧ Fact.Holds s (.unsent id)
  | _ => True

theorem update_set_id (u : FeeUpdate) (r : FeeRow) : (u.set r).id = r.id := by
  cases u <;> rfl

theorem update_keeps_live {a : Attempt} (hpre : FeeOp.Pre s (.update u)) (ha : a ∈ s.attempts)
    (hlive : a.isLive = true) (hr : r ∈ s.rows) (hid : r.id = a.order)
    (hh : r.devFeePaymentHash = some (.hash a.hash)) (hsel : u.selects r = true) :
    (u.set r).devFeePaymentHash = some (.hash a.hash) := by
  obtain ⟨hu,hguard⟩ := Bool.and_eq_true_iff.mp hsel
  have hu : r.id = u.id := beq_iff_eq.mp hu
  have hdead {id : Uuid} {x : FeeHash} (hx : ∃ h, x = .hash h ∧ Fact.Holds s (.dead id h))
      (hrid : r.id = id) (hrx : r.devFeePaymentHash = some x) : False := by
    obtain ⟨h,rfl,hdead⟩ := hx
    obtain rfl : a.hash = h := by simpa [hh] using hrx
    exact nomatch hlive.symm.trans (hdead a ha (hid.symm.trans hrid) rfl)
  cases u with
  | resetStale id x =>
    obtain ⟨m,rfl⟩ := hpre
    simp [FeeUpdate.guard,hh] at hguard
  | markPaid | paymentFailure => exact hh
  | clearFailed id x | resetAfterTimeout id x =>
    simp only [FeeUpdate.guard,Bool.and_eq_true,beq_iff_eq] at hguard
    exact (hdead hpre hu hguard.2).elim
  | tryClaimOrderForDevFee | releasePendingClaim | storeHash =>
    simp [FeeUpdate.guard,FeeRow.isUnclaimed,hh] at hguard
  | paymentSuccess id h =>
    have hstored := hpre.2.2 r hr hu
    rw [hh] at hstored
    exact hstored.symm

theorem update_paid (hpre : FeeOp.Pre s (.update u))
    (hold : r.devFeePaid = true → ∃ h, r.devFeePaymentHash = some (.hash h) ∧ s.settled h = true)
    (hsel : u.selects r = true) (hpaid : (u.set r).devFeePaid = true) :
    ∃ h, (u.set r).devFeePaymentHash = some (.hash h) ∧ s.settled h = true := by
  have hguard := (Bool.and_eq_true_iff.mp hsel).2
  cases u with
  | resetStale | paymentFailure | resetAfterTimeout => cases hpaid
  | markPaid id x =>
    obtain ⟨h,rfl,hset⟩ := hpre
    simp only [FeeUpdate.guard,Bool.and_eq_true,beq_iff_eq] at hguard
    exact ⟨h,hguard.2,hset⟩
  | clearFailed | tryClaimOrderForDevFee | storeHash =>
    have hpaid : r.devFeePaid = true := hpaid
    simp [FeeUpdate.guard,hpaid] at hguard
  | releasePendingClaim id m =>
    obtain ⟨h,hh,_⟩ := hold hpaid
    simp [FeeUpdate.guard,hh] at hguard
  | paymentSuccess id h => exact ⟨h,rfl,hpre.1⟩

theorem PaidOnce.update (h : PaidOnce s) (hpre : FeeOp.Pre s (.update u)) :
    PaidOnce { s with rows := updateWhere u.selects (fun r => u.set r) s.rows } := by
  refine ⟨?_,fun a ha hlive => ?_,h.one,?_⟩
  · dsimp only
    rw [map_updateWhere FeeRow.id fun r _ _ => update_set_id u r]
    exact h.ids
  · obtain ⟨r,hr,hid,hh⟩ := h.owned a ha hlive
    refine ⟨if u.selects r then u.set r else r,mem_updateWhere.mpr ⟨r,hr,rfl⟩,?_⟩
    split
    next hsel =>
      exact ⟨(update_set_id u r).trans hid,update_keeps_live hpre ha hlive hr hid hh hsel⟩
    next => exact ⟨hid,hh⟩
  · refine forall_updateWhere h.paid fun r _ hsel hold hpaid => ?_
    exact update_paid (s := s) hpre hold hsel hpaid

theorem PaidOnce.send (h : PaidOnce s) {id : Uuid} {hash : Hash}
    (hpre : FeeOp.Pre s (.sendPayment id hash)) :
    PaidOnce { s with attempts := ⟨id,hash,.transit⟩ :: s.attempts } := by
  obtain ⟨⟨⟨r,hr,hid⟩,hstored⟩,hunsent⟩ := hpre
  refine ⟨h.ids,fun a ha hlive => ?_,fun id' => ?_,fun r hr hpaid => ?_⟩
  · rcases List.mem_cons.mp ha with rfl | ha
    · exact ⟨r,hr,hid,hstored r hr hid⟩
    · exact h.owned a ha hlive
  · rw [List.countP_cons]
    split
    next hsame =>
      obtain rfl : id = id' := by simpa [Attempt.isLive] using hsame
      have hzero : s.attempts.countP (fun a => a.order == id && a.isLive) = 0 := by
        refine List.countP_eq_zero.mpr fun a ha hlive => ?_
        simp only [Bool.and_eq_true,beq_iff_eq] at hlive
        exact nomatch hlive.2.symm.trans (hunsent a ha hlive.1)
      omega
    next => exact h.one id'
  · obtain ⟨x,hx,hset⟩ := h.paid r hr hpaid
    refine ⟨x,hx,?_⟩
    rw [FeeState.settled,List.any_cons]
    exact Bool.or_eq_true_iff.mpr (.inr hset)

theorem exec_update (u : FeeUpdate) (ch : FeeChoice) (s : FeeState) :
    exec (.update u) ch s = if ch = .fault then (s,none)
      else ({ s with rows := updateWhere u.selects (fun r => u.set r) s.rows },
        if ch = .lost then none else some (affected u.selects s.rows)) := rfl

theorem PaidOnce.exec (h : PaidOnce s) (ch : FeeChoice) (hpre : FeeOp.Pre s op) :
    PaidOnce (exec op ch s).1 := by
  cases op with
  | update u =>
    rw [exec_update]
    split
    · exact h
    · exact h.update hpre
  | sendPayment id hash =>
    cases ch with
    | ok | lost | timeout => exact h.send hpre
    | fault | invoice | report => exact h
  | newUuid | confirm => exact ⟨h.ids,h.owned,h.one,h.paid⟩
  | _ => exact h

structure Attempt.Becomes (a a' : Attempt) : Prop where
  order : a'.order = a.order
  hash : a'.hash = a.hash
  live : a'.isLive = true → a.isLive = true
  settled : a.status = .succeeded → a'.status = .succeeded

theorem Attempt.Becomes.refl (a : Attempt) : a.Becomes a := ⟨rfl,rfl,id,id⟩

theorem modify_becomes {attempts : List Attempt} {i : Nat} {a : Attempt} {status : AttemptStatus}
    (hget : attempts[i]? = some a) (ha : a.Becomes { a with status }) :
    List.Forall₂ Attempt.Becomes attempts (attempts.modify i fun a => { a with status }) := by
  induction attempts generalizing i with
  | nil => cases hget
  | cons b rest ih =>
    cases i with
    | zero =>
      obtain rfl : b = a := by simpa using hget
      exact .cons ha (List.forall₂_same.mpr fun a _ => .refl a)
    | succ i => exact .cons (.refl b) (ih (by simpa using hget))

theorem countP_le_of_forall₂ {p : Attempt → Bool} {attempts attempts' : List Attempt}
    (h : List.Forall₂ (fun a a' => p a' = true → p a = true) attempts attempts') :
    attempts'.countP p ≤ attempts.countP p := by
  induction h with
  | nil => exact le_rfl
  | @cons a a' _ _ hp _ ih =>
    simp only [List.countP_cons]
    split <;> split
    · omega
    next hnew hold => exact absurd (hp hnew) hold
    · omega
    · exact ih

structure Moves (s s' : FeeState) : Prop where
  attempts : List.Forall₂ Attempt.Becomes s.attempts s'.attempts
  kept : ∀ r ∈ s.rows, ∃ r' ∈ s'.rows, r'.id = r.id ∧ r'.devFeePaymentHash = r.devFeePaymentHash
  origin : ∀ r' ∈ s'.rows, (∃ r ∈ s.rows, r.id = r'.id ∧
    r.devFeePaymentHash = r'.devFeePaymentHash ∧ r.devFeePaid = r'.devFeePaid) ∨
    (∀ r ∈ s.rows, r.id ≠ r'.id) ∧ r'.devFeePaid = false
  ids : (s.rows.map FeeRow.id).Nodup → (s'.rows.map FeeRow.id).Nodup

theorem Moves.of_attempts (hr : s'.rows = s.rows)
    (ha : List.Forall₂ Attempt.Becomes s.attempts s'.attempts) : Moves s s' := by
  refine ⟨ha,fun r h => ⟨r,hr ▸ h,rfl,rfl⟩,fun r' h => .inl ⟨r',hr ▸ h,rfl,rfl,rfl⟩,?_⟩
  rw [hr]
  exact fun h => h

theorem attempts_same (attempts : List Attempt) :
    List.Forall₂ Attempt.Becomes attempts attempts :=
  List.forall₂_same.mpr fun a _ => .refl a

theorem env_moves {e : FeeEnv} (h : e.move s = some s') : Moves s s' := by
  cases e with
  | tick | crash =>
    cases h
    exact .of_attempts rfl (attempts_same _)
  | newOrder id status devFee =>
    simp only [FeeEnv.move] at h
    split at h
    · cases h
    next hnew =>
      cases h
      have hnew : ∀ r ∈ s.rows, r.id ≠ id := by simpa using hnew
      refine ⟨attempts_same _,fun r hr => ⟨r,List.mem_append_left _ hr,rfl,rfl⟩,fun r' hr' => ?_,?_⟩
      · rcases List.mem_append.mp hr' with hr | hr
        · exact .inl ⟨r',hr,rfl,rfl,rfl⟩
        · rw [List.mem_singleton.mp hr]
          exact .inr ⟨hnew,rfl⟩
      · intro hids
        rw [List.map_append,List.nodup_append]
        refine ⟨hids,by simp,?_⟩
        rintro x hx y hy rfl
        obtain ⟨r,hr,rfl⟩ := List.mem_map.mp hx
        exact hnew r hr (List.mem_singleton.mp hy)
  | changeOrder id status devFee =>
    cases h
    refine ⟨attempts_same _,fun r hr => ⟨_,mem_updateWhere.mpr ⟨r,hr,rfl⟩,?_⟩,fun r' hr' => .inl ?_,
      fun hids => ?_⟩
    · split <;> exact ⟨rfl,rfl⟩
    · obtain ⟨r,hr,rfl⟩ := mem_updateWhere.mp hr'
      refine ⟨r,hr,?_⟩
      split <;> exact ⟨rfl,rfl,rfl⟩
    · dsimp only
      rwa [map_updateWhere]
      exact fun _ _ _ => rfl
  | register i =>
    simp only [FeeEnv.move] at h
    split at h
    next hget =>
      cases h
      exact .of_attempts rfl (modify_becomes hget ⟨rfl,rfl,fun _ => rfl,nofun⟩)
    next => cases h
  | settle i =>
    simp only [FeeEnv.move] at h
    split at h
    next hget =>
      split at h
      · cases h
      · cases h
        exact .of_attempts rfl (modify_becomes hget ⟨rfl,rfl,fun _ => rfl,nofun⟩)
    next => cases h
  | failAttempt i =>
    simp only [FeeEnv.move] at h
    split at h
    next hget =>
      cases h
      exact .of_attempts rfl (modify_becomes hget ⟨rfl,rfl,nofun,nofun⟩)
    next hget =>
      cases h
      exact .of_attempts rfl (modify_becomes hget ⟨rfl,rfl,nofun,nofun⟩)
    next => cases h

theorem Moves.attempt_origin (h : Moves s s') {a' : Attempt} (ha : a' ∈ s'.attempts) :
    ∃ a ∈ s.attempts, a.Becomes a' := by
  obtain ⟨i,hi,rfl⟩ := List.getElem_of_mem ha
  have hlt : i < s.attempts.length := h.attempts.length_eq ▸ hi
  exact ⟨s.attempts[i],List.getElem_mem hlt,h.attempts.get hlt hi⟩

theorem Moves.settled (h : Moves s s') {x : Hash} (hx : s.settled x = true) :
    s'.settled x = true := by
  obtain ⟨a,ha,hst⟩ := List.any_eq_true.mp hx
  simp only [Bool.and_eq_true,beq_iff_eq] at hst
  obtain ⟨i,hi,rfl⟩ := List.getElem_of_mem ha
  have hlt : i < s'.attempts.length := h.attempts.length_eq ▸ hi
  have hb := h.attempts.get hi hlt
  refine List.any_eq_true.mpr ⟨s'.attempts[i],List.getElem_mem hlt,?_⟩
  simpa using ⟨hb.hash.trans hst.1,hb.settled hst.2⟩

theorem Moves.holds (h : Moves s s') {f : Fact} (hf : f.Holds s) : f.Holds s' := by
  cases f with
  | settled x => exact h.settled hf
  | dead id x =>
    intro a' ha' ho hh
    obtain ⟨a,ha,hb⟩ := h.attempt_origin ha'
    refine Bool.eq_false_iff.mpr fun hlive => ?_
    exact nomatch (hb.live hlive).symm.trans
      (hf a ha (hb.order.symm.trans ho) (hb.hash.symm.trans hh))
  | unsent id =>
    intro a' ha' ho
    obtain ⟨a,ha,hb⟩ := h.attempt_origin ha'
    refine Bool.eq_false_iff.mpr fun hlive => ?_
    exact nomatch (hb.live hlive).symm.trans (hf a ha (hb.order.symm.trans ho))
  | stored id x =>
    obtain ⟨⟨r,hr,hid⟩,hall⟩ := hf
    obtain ⟨r',hr',hid',_⟩ := h.kept r hr
    refine ⟨⟨r',hr',hid'.trans hid⟩,fun q hq hqid => ?_⟩
    rcases h.origin q hq with ⟨p,hp,hpid,hph,_⟩ | ⟨hnew,_⟩
    · exact hph ▸ hall p hp (hpid.trans hqid)
    · exact absurd (hid.trans hqid.symm) (hnew r hr)

theorem PaidOnce.moves (h : PaidOnce s) (hm : Moves s s') : PaidOnce s' := by
  refine ⟨hm.ids h.ids,fun a' ha' hlive => ?_,fun id => ?_,fun r' hr' hpaid => ?_⟩
  · obtain ⟨a,ha,hb⟩ := hm.attempt_origin ha'
    obtain ⟨r,hr,hid,hh⟩ := h.owned a ha (hb.live hlive)
    obtain ⟨r',hr',hid',hh'⟩ := hm.kept r hr
    refine ⟨r',hr',hid'.trans (hid.trans hb.order.symm),?_⟩
    rw [hh',hh,hb.hash]
  · refine (countP_le_of_forall₂ (hm.attempts.imp fun a a' hb hp => ?_)).trans (h.one id)
    simp only [Bool.and_eq_true,beq_iff_eq] at hp ⊢
    exact ⟨hb.order.symm.trans hp.1,hb.live hp.2⟩
  · rcases hm.origin r' hr' with ⟨r,hr,_,hh,hp⟩ | ⟨_,hp⟩
    · obtain ⟨x,hx,hset⟩ := h.paid r hr (hp.trans hpaid)
      exact ⟨x,hh ▸ hx,hm.settled hset⟩
    · exact nomatch hp.symm.trans hpaid

def feeContract : Contract FeeState Unit FeeOp where
  Binds _ := True
  Rely _ s s' := ∀ f : Fact, f.Holds s → f.Holds s'
  Known _ _ _ s := PaidOnce s
  Pre _ op s := op.Pre s
  Idle _ _ := True

abbrev FeeSat {α : Type} (p : F α) (s : FeeState) : Prop :=
  feeJob.Sat System.Demand.none feeContract () p (fun _ _ => True) s

section

variable {α β : Type}

theorem feeSat_bind {p : F α} {f : α → F β} (hp : ∀ s, FeeSat p s) (hf : ∀ a s, FeeSat (f a) s)
    (s : FeeState) : FeeSat (p.bind f) s := by
  refine System.Sat.bind ((hp s).mono fun r s _ => ?_)
  cases r with
  | ok a => exact hf a s
  | error e => trivial

theorem feeSat_ask {f : op.Res → F β} {Γ : List Fact} (hΓ : ∀ x ∈ Γ, x.Holds s)
    (h : ∀ s, (∀ x ∈ Γ, x.Holds s) → PaidOnce s →
      op.Pre s ∧ ∀ ch, FeeSat (f (exec op ch s).2) (exec op ch s).1) :
    FeeSat ((ask op).bind f) s := by
  intro s₁ ls hr hk
  obtain ⟨hpre,hrest⟩ := h s₁ (fun x hx => hr x (hΓ x hx)) hk
  exact ⟨hpre,fun ch _ => hrest ch⟩

theorem feeSat_free {f : op.Res → F β} (hop : ∀ s, op.Pre s) (hf : ∀ r s, FeeSat (f r) s)
    (s : FeeState) : FeeSat ((ask op).bind f) s :=
  feeSat_ask (Γ := []) (fun _ h => nomatch h) fun s _ _ => ⟨hop s,fun _ => hf _ _⟩

theorem feeSat_last (hop : ∀ s, op.Pre s) (s : FeeState) : FeeSat (ask op) s :=
  fun s₁ _ _ _ => ⟨hop s₁,fun _ _ => trivial⟩

theorem feeSat_forEach {xs : List α} {f : α → F Unit} (hf : ∀ a ∈ xs, ∀ s, FeeSat (f a) s)
    (s : FeeState) : FeeSat (Prog.forEach xs f) s :=
  System.Sat.forEach trivial fun a ha s _ => hf a ha s

theorem feeSat_select {q : FeeQuery} {f : FeeRow → F Unit}
    (hf : ∀ r, q.selects r = true → ∀ s, FeeSat (f r) s) (s : FeeState) :
    FeeSat (forSelected q f) s := by
  refine feeSat_ask (Γ := []) (fun _ h => nomatch h) fun s _ _ => ⟨trivial,fun ch => ?_⟩
  by_cases hch : ch = .ok
  · subst hch
    exact feeSat_forEach (fun r hr => hf r (List.mem_filter.mp hr).2) _
  · rw [show (exec (.select q) ch s).2 = none from if_neg hch]
    trivial

theorem live_dead (hl : s.live h = false) (id : Uuid) : Fact.Holds s (.dead id h) := by
  intro a ha _ hh
  refine Bool.eq_false_iff.mpr fun hlive => ?_
  have hany : s.live h = true := List.any_eq_true.mpr ⟨a,ha,by simp [hh,hlive]⟩
  exact nomatch hl.symm.trans hany

theorem feeSat_check {f : DevFeePaymentState → F β}
    (hsucceeded : ∀ h s, order.devFeePaymentHash = some (.hash h) → Fact.Holds s (.settled h) →
      FeeSat (f .succeeded) s)
    (hfailed : ∀ h s, order.devFeePaymentHash = some (.hash h) →
      Fact.Holds s (.dead order.id h) → FeeSat (f .failed) s)
    (hopen : ∀ status s, status = .inFlight ∨ status = .unknown → FeeSat (f status) s)
    (s : FeeState) : FeeSat ((checkDevFeePaymentStatus order).bind f) s := by
  unfold checkDevFeePaymentStatus
  match hh : order.devFeePaymentHash with
  | none | some .empty | some (.pending _) => exact hopen .unknown s (.inr rfl)
  | some (.hash h) =>
    refine feeSat_ask (Γ := []) (fun _ h => nomatch h) fun s _ _ => ⟨trivial,fun ch => ?_⟩
    show FeeSat (f (s.report h ch)) s
    unfold FeeState.report
    split
    · split
      next hset => exact hsucceeded h s hh hset
      next => exact hopen _ s (.inr rfl)
    · split
      next => exact hopen _ s (.inr rfl)
      next hlive => exact hfailed h s hh (live_dead (by simpa using hlive) _)
    next status hs hf =>
      cases status with
      | succeeded => exact absurd rfl hs
      | failed => exact absurd rfl hf
      | inFlight => exact hopen _ s (.inl rfl)
      | unknown => exact hopen _ s (.inr rfl)
    · exact hopen _ s (.inr rfl)

end

theorem cleanupStalePendingMarkers_sat (s : FeeState) : FeeSat cleanupStalePendingMarkers s := by
  unfold cleanupStalePendingMarkers
  refine feeSat_free (by exact fun _ => trivial) (fun now s => ?_) s
  refine feeSat_select (fun order hsel s => ?_) s
  dsimp only
  split
  · refine feeSat_free (fun _ => ?_) (by exact fun _ _ => trivial) s
    simp only [FeeQuery.selects] at hsel
    split at hsel
    next m hm => exact ⟨m,by rw [hm]; rfl⟩
    next => cases hsel
  · trivial

theorem verifyConfirmedOrders_sat (s : FeeState) : FeeSat verifyConfirmedOrders s := by
  unfold verifyConfirmedOrders
  refine feeSat_select (fun order _ s => feeSat_free (by exact fun _ => trivial)
    (fun known s => ?_) s) s
  split
  · trivial
  · refine feeSat_check (fun _ s _ _ => feeSat_last (by exact fun _ => trivial) s)
      (by exact fun _ _ _ _ => trivial) ?_ s
    rintro _ s (rfl | rfl) <;> trivial

theorem confirmIfPaid_sat (id : Uuid) (s : FeeState) : FeeSat (confirmIfPaid id) s := by
  refine feeSat_free (by exact fun _ => trivial) (fun paid s => ?_) s
  match paid with
  | some true => exact feeSat_last (by exact fun _ => trivial) s
  | some false | none => trivial

theorem publishAudit_sat (id : Uuid) (hash : FeeHash) (s : FeeState) :
    FeeSat (publishAudit id hash) s := by
  refine feeSat_free (by exact fun _ => trivial) (fun found s => ?_) s
  split
  · exact feeSat_last (by exact fun _ => trivial) s
  · trivial

theorem afterRecording_sat (id : Uuid) (hash : FeeHash) (affected : Option Nat) (s : FeeState) :
    FeeSat (afterRecording id hash affected) s := by
  unfold afterRecording
  split
  · trivial
  · exact confirmIfPaid_sat id s
  · exact feeSat_free (by exact fun _ => trivial) (fun _ s => publishAudit_sat id hash s) s

theorem recoverPartialPayments_sat (s : FeeState) : FeeSat recoverPartialPayments s := by
  unfold recoverPartialPayments
  refine feeSat_select (fun order _ s => feeSat_check (fun h s hh hset => ?_)
    (fun h s hh hdead => ?_)
    ?_ s) s
  · refine feeSat_ask (Γ := [.settled h]) (by simpa using hset) fun s hΓ _ =>
      ⟨⟨h,?_,?_⟩,fun ch => ?_⟩
    · rw [hh]; rfl
    · exact hΓ _ List.mem_cons_self
    · exact afterRecording_sat order.id _ _ _
  · refine feeSat_ask (Γ := [.dead order.id h]) (by simpa using hdead) fun s hΓ _ =>
      ⟨⟨h,?_,hΓ _ List.mem_cons_self⟩,fun _ => trivial⟩
    rw [hh]; rfl
  · rintro _ s (rfl | rfl) <;> trivial

theorem handlePaymentSuccess_sat (hset : Fact.Holds s (.settled h))
    (hstored : Fact.Holds s (.stored order.id h)) : FeeSat (handlePaymentSuccess order h) s := by
  refine feeSat_ask (Γ := [.settled h,.stored order.id h]) ?_ fun s hΓ _ => ⟨⟨?_,?_⟩,fun ch => ?_⟩
  · simp only [List.mem_cons,List.not_mem_nil,or_false,forall_eq_or_imp,forall_eq]
    exact ⟨hset,hstored⟩
  · exact hΓ _ List.mem_cons_self
  · exact hΓ _ (List.mem_cons_of_mem _ List.mem_cons_self)
  · exact afterRecording_sat order.id _ _ _

theorem handlePaymentTimeout_sat (order : FeeRow) (s : FeeState) :
    FeeSat (handlePaymentTimeout order) s := by
  refine feeSat_check (fun h s hh hset => ?_) (fun h s hh hdead => ?_) ?_ s
  · refine feeSat_ask (Γ := [.settled h]) (by simpa using hset) fun s hΓ _ =>
      ⟨⟨h,?_,?_⟩,fun ch => ?_⟩
    · rw [hh]; rfl
    · exact hΓ _ List.mem_cons_self
    · exact feeSat_last (by exact fun _ => trivial) _
  · refine feeSat_ask (Γ := [.dead order.id h]) (by simpa using hdead) fun s hΓ _ =>
      ⟨⟨h,?_,hΓ _ List.mem_cons_self⟩,fun _ => trivial⟩
    rw [hh]; rfl
  · rintro _ s (rfl | rfl) <;> trivial

theorem releasePendingClaim_sat (id : Uuid) (marker : PendingMarker) (s : FeeState) :
    FeeSat (releasePendingClaim id marker) s :=
  feeSat_free (by exact fun _ => trivial) (by exact fun _ _ => trivial) s

theorem settled_report {paid : Hash} {ch : FeeChoice}
    (hres : (exec (.awaitPayment h) ch s).2 = .succeeded paid) : paid = h ∧ s.settled h = true := by
  cases ch with
  | report status =>
    cases status with
    | succeeded =>
      by_cases hset : s.settled h = true
      · refine ⟨?_,hset⟩
        have hres :
            (if s.settled h then SendResult.succeeded h else .error) = .succeeded paid := hres
        rw [if_pos hset] at hres
        cases hres
        rfl
      · have hres :
            (if s.settled h then SendResult.succeeded h else .error) = .succeeded paid := hres
        rw [if_neg hset] at hres
        cases hres
    | _ => cases hres
  | _ => cases hres

theorem sendDevFeePayment_sat {f : SendResult → F Unit}
    (hstored : Fact.Holds s (.stored order.id h)) (hunsent : Fact.Holds s (.unsent order.id))
    (hsucceeded : ∀ s, Fact.Holds s (.settled h) → Fact.Holds s (.stored order.id h) →
      FeeSat (f (.succeeded h)) s) (hf : ∀ r s, (∀ paid, r ≠ .succeeded paid) → FeeSat (f r) s) :
    FeeSat ((sendDevFeePayment order h).bind f) s := by
  unfold sendDevFeePayment
  split
  · exact hf .error s nofun
  · rw [Prog.bind_eq,Prog.bind_assoc]
    refine feeSat_ask (Γ := [.stored order.id h,.unsent order.id]) ?_ fun s hΓ _ => ?_
    · simp only [List.mem_cons,List.not_mem_nil,or_false,forall_eq_or_imp,forall_eq]
      exact ⟨hstored,hunsent⟩
    have hstored : Fact.Holds s (.stored order.id h) := hΓ _ List.mem_cons_self
    refine ⟨⟨hstored,hΓ _ (List.mem_cons_of_mem _ List.mem_cons_self)⟩,fun ch => ?_⟩
    cases ch with
    | ok =>
      refine feeSat_ask (Γ := [.stored order.id h]) ?_ fun s hΓ _ => ⟨trivial,fun ch => ?_⟩
      · simp only [List.mem_singleton,forall_eq]
        exact hstored
      · match hres : (exec (.awaitPayment h) ch s).2 with
        | .succeeded paid =>
          obtain ⟨rfl,hset⟩ := settled_report hres
          exact hsucceeded s hset (hΓ _ List.mem_cons_self)
        | .sent => exact hf .sent s nofun
        | .error => exact hf .error s nofun
        | .timeout => exact hf .timeout s nofun
    | timeout => exact hf .timeout _ nofun
    | fault | lost | invoice | report => exact hf .error _ nofun

theorem storeHash_holds (hi : PaidOnce s) {id : Uuid} {marker : PendingMarker} {ch : FeeChoice}
    {n : Nat} (hres : (exec (.update (.storeHash id h marker)) ch s).2 = some (n + 1)) :
    Fact.Holds (exec (.update (.storeHash id h marker)) ch s).1 (.stored id h) ∧
      Fact.Holds (exec (.update (.storeHash id h marker)) ch s).1 (.unsent id) := by
  let u := FeeUpdate.storeHash id h marker
  rw [exec_update] at hres ⊢
  split at hres
  · cases hres
  next hch =>
    rw [if_neg hch]
    have hcount : 0 < affected u.selects s.rows := by
      dsimp only at hres
      split at hres
      · cases hres
      · rw [Option.some.inj hres]
        exact Nat.succ_pos n
    obtain ⟨r,hr,hsel⟩ := affected_pos.mp hcount
    have hid : r.id = id := beq_iff_eq.mp (Bool.and_eq_true_iff.mp hsel).1
    have hpending : r.devFeePaymentHash = some (.pending marker) := by
      simpa [u,FeeUpdate.guard] using (Bool.and_eq_true_iff.mp
        (Bool.and_eq_true_iff.mp hsel).2).2
    have honly : ∀ q ∈ s.rows, q.id = id → q = r := fun q hq hqid =>
      List.inj_on_of_nodup_map hi.ids hq hr (hqid.trans hid.symm)
    refine ⟨⟨⟨u.set r,mem_updateWhere.mpr ⟨r,hr,if_pos hsel⟩,hid⟩,fun q' hq' hqid => ?_⟩,?_⟩
    · obtain ⟨q,hq,rfl⟩ := mem_updateWhere.mp hq'
      by_cases hs : u.selects q = true
      · rw [if_pos hs]
        rfl
      · rw [if_neg hs] at hqid
        exact absurd (honly q hq hqid ▸ hsel) hs
    · intro a ha ho
      refine Bool.eq_false_iff.mpr fun hlive => ?_
      obtain ⟨q,hq,hqid,hh⟩ := hi.owned a ha hlive
      rw [honly q hq (hqid.trans ho),hpending] at hh
      cases hh

theorem payClaimed_sat (id : Uuid) (marker : PendingMarker) (h : Hash) (s : FeeState) :
    FeeSat (payClaimed id marker h) s := by
  refine feeSat_ask (Γ := []) (fun _ h => nomatch h) fun s _ hi => ⟨trivial,fun ch => ?_⟩
  match hres : (exec (.update (.storeHash id h marker)) ch s).2 with
  | none => exact releasePendingClaim_sat id marker _
  | some 0 => trivial
  | some (n + 1) =>
    obtain ⟨hstored,hunsent⟩ := storeHash_holds hi hres
    generalize (exec (.update (.storeHash id h marker)) ch s).1 = s at hstored hunsent
    refine feeSat_ask (Γ := [.stored id h,.unsent id]) ?_ fun s hΓ _ => ⟨trivial,fun ch => ?_⟩
    · simp only [List.mem_cons,List.not_mem_nil,or_false,forall_eq_or_imp,forall_eq]
      exact ⟨hstored,hunsent⟩
    match hres : (exec (.orderById id) ch s).2 with
    | none => trivial
    | some order =>
      have hid : order.id = id := by
        by_cases hch : ch = .ok
        · subst hch
          have hres : (s.rows.find? fun r => r.id == id) = some order := hres
          simpa using List.find?_some hres
        · rw [show (exec (.orderById id) ch s).2 = none from if_neg hch] at hres
          cases hres
      subst hid
      refine sendDevFeePayment_sat (hΓ _ List.mem_cons_self)
        (hΓ _ (List.mem_cons_of_mem _ List.mem_cons_self))
        (fun s hset hstored => handlePaymentSuccess_sat hset hstored) fun r s hr => ?_
      match r with
      | .succeeded paid => exact absurd rfl (hr paid)
      | .error => exact feeSat_free (by exact fun _ => trivial) (by exact fun _ _ => trivial) s
      | .timeout => exact handlePaymentTimeout_sat order s
      | .sent => trivial

theorem resolveDevFeeInvoice_sat (order : FeeRow) (s : FeeState) :
    FeeSat (resolveDevFeeInvoice order) s := by
  unfold resolveDevFeeInvoice
  split
  · trivial
  · exact feeSat_last (by exact fun _ => trivial) s

theorem payDevFee_sat (order : FeeRow) (s : FeeState) : FeeSat (payDevFee order) s := by
  refine feeSat_free (by exact fun _ => trivial) (fun now s => ?_) s
  refine feeSat_free (by exact fun _ => trivial) (fun uuid s => ?_) s
  refine feeSat_free (by exact fun _ => trivial) (fun claimed s => ?_) s
  match claimed with
  | none | some 0 => trivial
  | some (n + 1) =>
    refine feeSat_bind (resolveDevFeeInvoice_sat order) (fun resolved s => ?_) s
    cases resolved with
    | none => exact releasePendingClaim_sat order.id _ s
    | some h => exact payClaimed_sat order.id _ h s

theorem runDevFeeCycle_sat (s : FeeState) : FeeSat runDevFeeCycle s := by
  refine feeSat_bind cleanupStalePendingMarkers_sat (fun _ s => ?_) s
  refine feeSat_bind verifyConfirmedOrders_sat (fun _ s => ?_) s
  refine feeSat_bind recoverPartialPayments_sat (fun _ s => ?_) s
  exact feeSat_select (fun order _ s => payDevFee_sat order s) s

theorem feeContract_kept : System.Keeps feeJob System.Demand.none feeContract FeeState.Initial where
  rely_refl _ _ _ h := h
  rely_trans _ _ _ _ h h' f hf := h' f (h f hf)
  distinct _ := rfl
  init _ _ _ _ := trivial
  start _ _ _ _ _ hne := absurd rfl hne
  code _ s _ _ _ hl := by
    cases hl
    exact runDevFeeCycle_sat s
  other _ _ _ _ _ _ hco := nomatch hco
  idle _ _ _ _ _ _ hne := absurd rfl hne
  env e ls s s' _ he :=
    ⟨fun _ _ _ => ⟨fun _ _ => (env_moves he).holds,fun _ => trivial⟩,fun _ _ _ => trivial⟩

theorem paidOnce_reach {c : Config FeeState Unit FeeOp FeeOp.Res Unit}
    (h : feeJob.Reach System.Demand.none FeeState.Initial c) : PaidOnce c.shared := by
  refine (feeContract_kept.invariant (fun _ => trivial) (fun _ _ _ _ h => h) (fun _ => .initial)
    (fun _ _ _ hl h => ?_) (fun _ _ ch _ _ hpre _ hi => hi.exec ch hpre)
    (fun _ _ _ _ _ he hi => hi.moves (env_moves he)) h).1
  cases hl
  exact h

theorem unpaid_selected (he : r.isEligible = true) (hp : r.devFeePaid = false) :
    ∃! q : FeeQuery, q.selects r = true := by
  match hh : r.devFeePaymentHash with
  | none | some .empty =>
    refine ⟨.unpaidDevFees,by simp [FeeQuery.selects,FeeRow.isUnclaimed,he,hp,hh],fun q hq => ?_⟩
    cases q <;> simp [FeeQuery.selects,FeeRow.hasRealHash,hp,hh] at hq ⊢
  | some (.pending m) =>
    refine ⟨.pendingMarkers,by simp [FeeQuery.selects,hh],fun q hq => ?_⟩
    cases q <;> simp [FeeQuery.selects,FeeRow.hasRealHash,FeeRow.isUnclaimed,hp,hh] at hq ⊢
  | some (.hash h) =>
    refine ⟨.partialPayments,by simp [FeeQuery.selects,FeeRow.hasRealHash,he,hp,hh],fun q hq => ?_⟩
    cases q <;> simp [FeeQuery.selects,FeeRow.isUnclaimed,hp,hh] at hq ⊢

def cycleOf (answers : List FeeChoice) : List (Event Unit FeeChoice FeeEnv) :=
  .start () :: answers.map fun ch => .step 0 ch

def retriedFee : List (Event Unit FeeChoice FeeEnv) :=
  .env (.newOrder 1 .success 10) ::
    cycleOf (List.replicate 8 .ok ++ .invoice 5 :: List.replicate 5 .ok)
    ++ [.env (.register 0),.env (.failAttempt 0)]
    ++ cycleOf (List.replicate 4 .ok ++ .report .failed :: List.replicate 5 .ok
      ++ [.invoice 6,.ok,.ok,.lost,.ok])
    ++ [.env (.register 0),.env (.settle 0),.env .crash]
    ++ cycleOf (List.replicate 4 .ok ++ .report .succeeded :: List.replicate 5 .ok)

end Mostro.DevFee
