import Mostro.EventIntake

set_option autoImplicit false

/-!
Replays.  The guard forgets a sighting after its window and the age test refuses old events, so an
event whose `created_at` is not far ahead of the clock is never both forgotten and fresh.
-/

namespace Mostro.EventLoop

theorem lookup_retainSeen {seen : AList fun _ : EventId => Int} {cutoff τ : Int} {id : EventId} :
    (retainSeen seen cutoff).lookup id = some τ ↔ seen.lookup id = some τ ∧ cutoff ≤ τ := by
  simp only [← Option.mem_def,AList.mem_lookup_iff,retainSeen,List.mem_filter,decide_eq_true_eq]

section

variable {T : Transport} (cfg : Settings) {s : Intake} {t : Int}

def Intake.sighting (s : Intake) (id : EventId) : Option Int :=
  s.gate.bind fun gate => gate.replay.bind fun guard => guard.seen.lookup id

def Intake.Guarded (s : Intake) : Prop :=
  ∃ gate guard, s.gate = some gate ∧ gate.replay = some guard ∧ guard.windowSecs = replayWindowSecs

/-- How far ahead of the clock the `created_at` of an event may be at its delivery. -/
def maxAheadSecs : Int := replayWindowSecs - 10

def Spent (T : Transport) (t : Int) (s : Intake) (id : EventId) : Prop :=
  ∃ e, T.verify e = true ∧ e.id = id ∧
    ((∃ τ, s.sighting id = some τ ∧ e.createdAt ≤ τ + maxAheadSecs) ∨ e.createdAt + 10 < t)

theorem Spent.mono {s' : Intake} {t' : Int} {id : EventId} (h : Spent T t s id)
    (hs : s'.sighting id = s.sighting id) (ht : t ≤ t') : Spent T t' s' id := by
  obtain ⟨e,hv,hid,hcase⟩ := h
  refine ⟨e,hv,hid,hcase.imp ?_ fun hold => by omega⟩
  rintro ⟨τ,hτ,hle⟩
  exact ⟨τ,hs.trans hτ,hle⟩

theorem passGate_sighting (hg : s.Guarded) (event : Event) (now : Int) :
    (s.passGate T cfg event now).1.Guarded ∧
      ((s.passGate T cfg event now).2 = true →
        ∀ τ, s.sighting event.id = some τ → τ < now - replayWindowSecs) ∧
      (s.passGate T cfg event now).1.sighting event.id = some now ∧
      ∀ id, id ≠ event.id → ∀ τ, s.sighting id = some τ → now - replayWindowSecs ≤ τ →
        (s.passGate T cfg event now).1.sighting id = some τ := by
  obtain ⟨gate,guard,hgate,hguard,hwindow⟩ := hg
  simp only [Intake.passGate,hgate,SpamGate.pass,SpamGate.isReplay,hguard,
    ReplayGuard.checkAndRecord,hwindow,Intake.Guarded,Intake.sighting,Option.bind_some]
  refine ⟨⟨_,_,rfl,rfl,rfl⟩,fun hpass τ hτ => ?_,AList.lookup_insert _,fun id hid τ hτ hle => ?_⟩
  · by_contra hle
    have hkept := lookup_retainSeen.mpr ⟨hτ,not_lt.mp hle⟩
    simp [hkept] at hpass
  · rw [AList.lookup_insert_ne hid]
    exact lookup_retainSeen.mpr ⟨hτ,hle⟩

theorem decodeFresh_young (hT : T.Documented) {event : Event} {now : Int} {m : UnwrappedMessage}
    (hnow : now < 2 ^ 63) (h : decodeFresh T event now = some m) : now ≤ event.createdAt + 10 := by
  unfold decodeFresh at h
  split at h
  next m' hm =>
    split at h
    · cases h
    next hfresh =>
      rw [hT.created_at event m' hm,sinceTime] at hfresh
      by_contra hold
      have hrange : (now - 10) % 2 ^ 64 = now - 10 := Int.emod_eq_of_lt (by omega) (by omega)
      rw [hrange] at hfresh
      omega
  next => cases h

theorem acceptEvent_spec (d : Delivery) (s : Intake) :
    let out := acceptEvent T cfg d s
    let gated := s.passGate T cfg d.event d.gateNow
    out.1.dispatched = s.dispatched ∧
      ((out.1.gate = s.gate ∧ out.2 = none) ∨
        (T.verify d.event = true ∧ out.1.gate = gated.1.gate ∧
          ∀ m, out.2 = some m → gated.2 = true ∧ decodeFresh T d.event d.freshNow = some m)) := by
  have hlog : (s.passGate T cfg d.event d.gateNow).1.dispatched = s.dispatched := by
    unfold Intake.passGate
    split <;> rfl
  unfold acceptEvent
  dsimp only
  split
  · exact ⟨rfl,.inl ⟨rfl,rfl⟩⟩
  next hpre =>
    have hv : T.verify d.event = true := by
      simp only [Bool.or_eq_true,not_or,Bool.not_eq_true'] at hpre
      simpa using hpre.2
    split
    · exact ⟨hlog,.inr ⟨hv,rfl,nofun⟩⟩
    next hpass =>
      have hpass : (s.passGate T cfg d.event d.gateNow).2 = true := by simpa using hpass
      split
      · exact ⟨hlog,.inr ⟨hv,rfl,nofun⟩⟩
      next m hm =>
        split
        · exact ⟨hlog,.inr ⟨hv,rfl,nofun⟩⟩
        · refine ⟨hlog,.inr ⟨hv,rfl,fun m' hm' => ⟨hpass,?_⟩⟩⟩
          split at hm'
          · exact hm.trans hm'
          · cases hm'

theorem dispatch_gate (d : Delivery) (m : UnwrappedMessage) (s : Intake) :
    (dispatch d m s).gate = s.gate ∧ (dispatch d m s).dispatched = d.event.id :: s.dispatched := by
  unfold dispatch
  dsimp only
  split
  · split <;> exact ⟨rfl,rfl⟩
  · exact ⟨rfl,rfl⟩

theorem Spent.passGate (hT : T.Documented) (hg : s.Guarded) {event : Event} {now : Int}
    (hv : T.verify event = true) (hnear : event.createdAt ≤ now + maxAheadSecs) (ht : t ≤ now)
    {id : EventId} (h : Spent T t s id) : Spent T now (s.passGate T cfg event now).1 id := by
  obtain ⟨_,_,hown,hothers⟩ := passGate_sighting (T := T) cfg hg event now
  obtain ⟨e,hve,rfl,hcase⟩ := h
  by_cases hid : e.id = event.id
  · refine ⟨e,hve,rfl,.inl ⟨now,?_,?_⟩⟩
    · rw [hid]
      exact hown
    · rw [hT.id_commits e event hve hv hid]
      exact hnear
  · refine ⟨e,hve,rfl,?_⟩
    rcases hcase with ⟨τ,hτ,hle⟩ | hold
    · by_cases hkept : now - replayWindowSecs ≤ τ
      · exact .inl ⟨τ,hothers e.id hid τ hτ hkept,hle⟩
      · simp only [maxAheadSecs] at hle
        exact .inr (by omega)
    · exact .inr (by omega)

structure AtMostOnce (T : Transport) (t : Int) (s : Intake) : Prop where
  guarded : s.Guarded
  nodup : s.dispatched.Nodup
  spent : ∀ id ∈ s.dispatched, Spent T t s id

theorem AtMostOnce.congr {s' : Intake} {t' : Int} (h : AtMostOnce T t s) (hg : s'.gate = s.gate)
    (hl : s'.dispatched = s.dispatched) (ht : t ≤ t') : AtMostOnce T t' s' := by
  refine ⟨?_,hl ▸ h.nodup,fun id hid => (h.spent id (hl ▸ hid)).mono ?_ ht⟩
  · simpa only [Intake.Guarded,hg] using h.guarded
  · simp only [Intake.sighting,hg]

section

variable {d : Delivery}

theorem AtMostOnce.acceptEvent (hT : T.Documented) (h : AtMostOnce T t s) (ht : t ≤ d.gateNow)
    (hclock : d.gateNow ≤ d.freshNow) (hnear : d.event.createdAt ≤ d.gateNow + maxAheadSecs) :
    AtMostOnce T d.freshNow (acceptEvent T cfg d s).1 := by
  obtain ⟨hlog,hcase⟩ := acceptEvent_spec (T := T) cfg d s
  rcases hcase with ⟨hgate,_⟩ | ⟨hv,hgate,_⟩
  · exact h.congr hgate hlog (ht.trans hclock)
  · refine ⟨?_,hlog ▸ h.nodup,fun id hid => ?_⟩
    · simpa only [Intake.Guarded,hgate] using (passGate_sighting cfg h.guarded d.event d.gateNow).1
    · have hspent := (h.spent id (hlog ▸ hid)).passGate cfg hT h.guarded hv hnear ht
      exact hspent.mono (by simp only [Intake.sighting,hgate]) hclock

theorem accepted_new (hT : T.Documented) (h : AtMostOnce T t s) (ht : t ≤ d.gateNow)
    (hclock : d.gateNow ≤ d.freshNow) (hrange : d.freshNow < 2 ^ 63)
    (hnear : d.event.createdAt ≤ d.gateNow + maxAheadSecs) {m : UnwrappedMessage}
    (hm : (EventLoop.acceptEvent T cfg d s).2 = some m) :
    d.event.id ∉ s.dispatched ∧
      Spent T d.freshNow (EventLoop.acceptEvent T cfg d s).1 d.event.id := by
  obtain ⟨_,hcase⟩ := acceptEvent_spec (T := T) cfg d s
  obtain ⟨_,hforgotten,hown,_⟩ :=
    passGate_sighting (T := T) cfg h.guarded d.event d.gateNow
  rcases hcase with ⟨_,hnone⟩ | ⟨hv,hgate,haccept⟩
  · exact nomatch hnone.symm.trans hm
  · obtain ⟨hpass,hfresh⟩ := haccept m hm
    have hyoung := decodeFresh_young hT hrange hfresh
    refine ⟨fun hid => ?_,d.event,hv,rfl,.inl ⟨d.gateNow,?_,hnear⟩⟩
    · obtain ⟨e,hve,hid,hcase⟩ := h.spent _ hid
      have hsame := hT.id_commits e d.event hve hv hid
      rcases hcase with ⟨τ,hτ,hle⟩ | hold
      · have hgone := hforgotten hpass τ hτ
        simp only [maxAheadSecs] at hle
        omega
      · omega
    · simp only [Intake.sighting,hgate]
      exact hown

theorem AtMostOnce.deliver (hT : T.Documented) (h : AtMostOnce T t s) (ht : t ≤ d.gateNow)
    (hclock : d.gateNow ≤ d.freshNow) (hrange : d.freshNow < 2 ^ 63)
    (hnear : d.event.createdAt ≤ d.gateNow + maxAheadSecs) :
    AtMostOnce T d.freshNow (deliver T cfg d s) := by
  have haccept := h.acceptEvent cfg hT ht hclock hnear
  have hlog := (acceptEvent_spec (T := T) cfg d s).1
  have hnew {m} := accepted_new cfg (m := m) hT h ht hclock hrange hnear
  unfold EventLoop.deliver
  generalize EventLoop.acceptEvent T cfg d s = out at haccept hlog hnew
  obtain ⟨s',_ | m⟩ := out
  · exact haccept
  · obtain ⟨hfirst,hspent⟩ := hnew rfl
    obtain ⟨hgate,hdispatched⟩ := dispatch_gate d m s'
    have hsight (id : EventId) : (dispatch d m s').sighting id = s'.sighting id := by
      simp only [Intake.sighting,hgate]
    refine ⟨by simpa only [Intake.Guarded,hgate] using haccept.guarded,?_,fun id hid => ?_⟩
    · rw [hdispatched]
      exact List.nodup_cons.mpr ⟨hlog ▸ hfirst,haccept.nodup⟩
    · rw [hdispatched] at hid
      rcases List.mem_cons.mp hid with rfl | hid
      · exact hspent.mono (hsight _) le_rfl
      · exact (haccept.spent id hid).mono (hsight _) le_rfl

end

theorem AtMostOnce.refreshKnown (h : AtMostOnce T t s) (keys : List Pubkey) :
    AtMostOnce T t (step T cfg s (.refreshKnown keys)) := by
  have hsight (id : EventId) : (step T cfg s (.refreshKnown keys)).sighting id = s.sighting id := by
    cases hg : s.gate <;> simp [Intake.sighting,step,hg,SpamGate.setKnown]
  refine ⟨?_,h.nodup,fun id hid => (h.spent id hid).mono (hsight id) le_rfl⟩
  obtain ⟨gate,guard,hgate,hguard,hwindow⟩ := h.guarded
  exact ⟨gate.setKnown keys,guard,by simp [step,hgate],hguard,hwindow⟩

def Happening.isNear : Happening → Bool
  | .deliver d => d.event.createdAt ≤ d.gateNow + maxAheadSecs
  | .refreshKnown _ => true

theorem AtMostOnce.run (hT : T.Documented) (h : AtMostOnce T t s) {hs : List Happening}
    (hclock : clockRuns t hs = true) (hnear : ∀ e ∈ hs, e.isNear = true) :
    ∃ t', AtMostOnce T t' (run T cfg s hs) := by
  induction hs generalizing s t with
  | nil => exact ⟨t,h⟩
  | cons e rest ih =>
    have hrest := fun e he => hnear e (List.mem_cons_of_mem _ he)
    cases e with
    | deliver d =>
      simp only [clockRuns,Bool.and_eq_true,decide_eq_true_eq] at hclock
      obtain ⟨⟨ht,hgate,hrange⟩,hclock⟩ := hclock
      have hd := hnear _ List.mem_cons_self
      simp only [Happening.isNear,decide_eq_true_eq] at hd
      exact ih (h.deliver cfg hT ht hgate hrange hd) hclock hrest
    | refreshKnown keys => exact ih (h.refreshKnown cfg keys) hclock hrest

theorem AtMostOnce.start (users : List User) : AtMostOnce T t (.start users) :=
  ⟨⟨_,_,rfl,rfl,rfl⟩,List.nodup_nil,fun _ h => nomatch h⟩

/-- Whatever is delivered and however often, while the clock does not run backwards and no event is
delivered more than `maxAheadSecs` before its `created_at`, no event is dispatched twice. -/
theorem dispatched_nodup (hT : T.Documented) {users : List User} {hs : List Happening} {t : Int}
    (hclock : clockRuns t hs = true) (hnear : ∀ e ∈ hs, e.isNear = true) :
    (run T cfg (.start users) hs).dispatched.Nodup :=
  ((AtMostOnce.start users).run cfg hT hclock hnear).elim fun _ h => h.nodup

end

def plainTransport : Transport where
  checkPow _ _ := true
  verify e := e.createdAt == e.id
  unwrapIncoming e := .ok (some ⟨⟨.other 0,none,0⟩,e.createdAt,e.pubkey,e.pubkey,none⟩)
  asJson _ := some 0
  verifySignature _ _ _ := true
  messageVerify _ := true

theorem plainTransport_documented : plainTransport.Documented where
  id_commits e e' h h' hid := by
    have h : e.createdAt = e.id := beq_iff_eq.mp h
    have h' : e'.createdAt = e'.id := beq_iff_eq.mp h'
    exact h.trans (hid.trans h'.symm)
  created_at e u h := by
    cases h
    rfl

/-- The delivery at the given time of the event with this `created_at`. -/
def arrival (createdAt : Nat) (now : Int) : Happening :=
  .deliver ⟨⟨createdAt,7,createdAt,14,0,0⟩,now,now,{},.proceeds⟩

theorem fresh_event_dispatched_once :
    (run plainTransport ⟨0,0,14⟩ (.start []) [arrival 1000 1000,arrival 1000 1005,
      arrival 1000 1070]).dispatched.Nodup ∧
    (run plainTransport ⟨0,0,14⟩ (.start []) [arrival 1000 1000,arrival 1000 1005,
      arrival 1000 1070]).dispatched = [1000] :=
  ⟨dispatched_nodup _ plainTransport_documented (t := 0) (by decide) (by decide),by decide +kernel⟩

/-- An event dated two minutes ahead is dispatched at its first delivery and again once the guard
has forgotten it. -/
theorem future_event_dispatched_twice :
    ∃ T cfg hs, T.Documented ∧ clockRuns 0 hs = true ∧
      (run T cfg (.start []) hs).dispatched = [1120,1120] :=
  ⟨plainTransport,⟨0,0,14⟩,[arrival 1120 1000,arrival 1120 1061],plainTransport_documented,
    by decide,by decide +kernel⟩

end Mostro.EventLoop
