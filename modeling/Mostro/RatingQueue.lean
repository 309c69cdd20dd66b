import Mostro.RatingCounts

set_option autoImplicit false

/-!
Rating events that are pushed while a round of the job runs.  The job reads the queue, sends what it
read and then clears the queue, whatever has been pushed to it since; where no event is pushed
during a round, each one is given to the relay client or still in the queue.
-/

namespace Mostro.Ratings

open Interleaving

def RateOp.flushes : RateOp → Bool
  | .readQueue | .sendEvent _ | .releaseQueue | .clearQueue => true
  | _ => false

/-- An event is pushed only while no round of the job runs. -/
abbrev pushedBetweenRounds : System.Demand RatingState Rater RateOp RateChoice Nat :=
  .check (fun _ op _ ls _ => match op with
    | .push _ => !ls.contains .updateRateEvents
    | _ => true) fun _ _ _ => true

def Rater.may (l : Rater) (op : RateOp) : Prop := op.flushes = true → l = .updateRateEvents

section

variable {l : Rater} {α : Type}

theorem only_op {op : RateOp} {k : op.Res → RateM α} (hop : op.flushes = false)
    (hk : ∀ r, (k r).Only l.may) : Prog.Only l.may (.call op k : RateM α) :=
  ⟨fun h => by simp [hop] at h,hk⟩

theorem only_orFail (r : Except MostroError α) : (orFail r).Only l.may := by
  cases r <;> trivial

theorem only_require (o : Option α) (e : MostroError) : (require o e).Only l.may := by
  cases o <;> trivial

theorem only_ensure (c : Bool) (e : MostroError) : (ensure c e).Only l.may := by
  cases c <;> trivial

theorem only_ite {c : Prop} [Decidable c] {p q : RateM α} (hp : p.Only l.may) (hq : q.Only l.may) :
    (if c then p else q).Only l.may := by
  split
  · exact hp
  · exact hq

theorem only_rateInTransaction (ext : Externals) (x : Success) :
    (rateInTransaction ext x).Only l.may := by
  refine only_op rfl fun r => (only_orFail r).bind fun claimed => ?_
  cases claimed with
  | false => trivial
  | true =>
    refine only_op rfl fun r => (only_orFail r).bind fun u => ?_
    refine (only_orFail _).bind fun _ => ?_
    refine only_op rfl fun r => (only_orFail r).bind fun _ => ?_
    exact only_op rfl fun r => (only_orFail r).bind fun _ => trivial

theorem only_applyRating (ext : Externals) (key : String) (x : Success) :
    (applyRating ext key x).Only l.may := by
  refine only_op rfl fun r => (only_orFail r).bind fun _ => ?_
  refine (only_rateInTransaction ext x).attempt.bind fun r => ?_
  match r with
  | .ok (some u) =>
    refine only_op rfl fun now => only_op rfl fun r => (only_orFail r).bind fun _ => ?_
    exact only_op rfl fun _ => trivial
  | .ok none => exact only_op rfl fun _ => trivial
  | .error e => exact only_op rfl fun _ => trivial

theorem only_rateOrder (ext : Externals) (msg : RateMessage) (o : RatedOrder) :
    (rateOrder ext msg o).Only l.may := by
  refine (only_orFail _).bind fun vars => (only_ensure _ _).bind fun _ => ?_
  dsimp only
  refine only_ite trivial ((only_require _ _).bind fun rating =>
    (only_require _ _).bind fun ids => ?_)
  cases if vars.2.1 = true then ids.2 else ids.1 with
  | none => trivial
  | some rated => exact only_applyRating ext vars.1 _

theorem only_code (ext : Externals) (l : Rater) : (Rater.code ext l).Only l.may := by
  cases l with
  | rate task msg =>
    refine ((only_require _ _).bind fun id => ?_).bind fun o => only_rateOrder ext msg o
    exact only_op rfl fun r => (only_orFail r).bind fun found => only_require found _
  | updateRateEvents => exact (Prog.only_true _).mono fun _ _ _ => rfl

end

structure RatingState.SameQueue (s s' : RatingState) : Prop where
  queue : s'.queue = s.queue
  reading : s'.reading = s.reading
  waiting : s'.waiting = s.waiting
  pushed : s'.pushed = s.pushed
  handed : s'.handed = s.handed

def queueContract : Contract RatingState Rater RateOp where
  Binds l := l = .updateRateEvents
  Rely := fun _ s s' => s.SameQueue s'
  Known := fun l op _ _ => l.may op
  Pre := fun _ op s => match op with
    | .clearQueue => ∀ e ∈ s.queue, e ∈ s.handed
    | _ => True
  Idle := fun _ s => s.reading = false ∧ s.waiting = []

section

variable {ext : Externals} {l : Rater} {op : RateOp} {s : RatingState}

theorem sameQueue_refl (s : RatingState) : s.SameQueue s := ⟨rfl,rfl,rfl,rfl,rfl⟩

theorem sameQueue_exec (ch : RateChoice) (hop : op.flushes = false) (hpush : ∀ e, op ≠ .push e) :
    s.SameQueue (op.exec l ch s).1 := by
  cases op with
  | push e => exact absurd rfl (hpush e)
  | claimOrderRatingFlag id b =>
    simp only [RateOp.exec]
    split_ifs <;> exact ⟨rfl,rfl,rfl,rfl,rfl⟩
  | updateUser u =>
    simp only [RateOp.exec]
    split_ifs
    · exact sameQueue_refl s
    · split
      · split_ifs <;> exact ⟨rfl,rfl,rfl,rfl,rfl⟩
      · exact sameQueue_refl s
  | commit x =>
    simp only [RateOp.exec]
    split
    · split_ifs <;> exact ⟨rfl,rfl,rfl,rfl,rfl⟩
    · exact sameQueue_refl s
  | rollback =>
    simp only [RateOp.exec]
    split_ifs <;> exact ⟨rfl,rfl,rfl,rfl,rfl⟩
  | readQueue | sendEvent _ | releaseQueue | clearQueue => cases hop
  | _ => exact sameQueue_refl s

theorem flushes_of_may (hne : l ≠ .updateRateEvents) (h : l.may op) : op.flushes = false := by
  by_contra hf
  exact hne (h (by simpa using hf))

def RatingState.Sending (rest : List RatingEvent) (s : RatingState) : Prop :=
  s.waiting = [] ∧ ∀ e ∈ s.queue, e ∈ s.handed ∨ e ∈ rest

theorem RatingState.Sending.same {rest : List RatingEvent} {s' : RatingState}
    (h : s.Sending rest) (hs : s.SameQueue s') : s'.Sending rest := by
  refine ⟨hs.waiting.trans h.1,fun e he => ?_⟩
  rw [hs.handed]
  exact h.2 e (hs.queue ▸ he)

theorem jobUpdateRateEvents_flushes (hs : s.waiting = []) :
    (ratings ext).Sat pushedBetweenRounds queueContract .updateRateEvents jobUpdateRateEvents
      (fun _ s => s.reading = false ∧ s.waiting = []) s := by
  intro s₁ _ hr _
  refine ⟨trivial,fun _ _ => ?_⟩
  have hread : RatingState.Sending s₁.queue { s₁ with reading := true } :=
    ⟨hr.waiting.trans hs,fun e he => .inr he⟩
  have hloop := System.Sat.forEach_rest (S := ratings ext) (D := pushedBetweenRounds)
    (K := queueContract) (l := .updateRateEvents) (I := RatingState.Sending)
    (f := fun e => Prog.perform (RateOp.sendEvent e)) hread ?_
  · simp only [Prog.bind_eq,Prog.ret_bind]
    refine System.Sat.bind (hloop.mono ?_)
    rintro _ s ⟨rfl,hs⟩
    intro s₁ _ hr _
    refine ⟨trivial,fun _ _ => ?_⟩
    obtain ⟨hwait,hsent⟩ := hs.same hr
    -- nobody waited for the queue, so what the job clears is what it read
    intro s₂ _ hr' _
    have hqueue : s₂.queue = s₁.queue := by
      rw [hr'.queue]
      simp [ratings,RateOp.exec,hwait]
    refine ⟨fun e he => ?_,fun _ _ => ⟨hr'.reading,hr'.waiting⟩⟩
    rw [hr'.handed]
    exact (hsent e (hqueue ▸ he)).resolve_right List.not_mem_nil
  · intro e rest s hs s₁ _ hr _
    refine ⟨trivial,fun _ _ => ⟨rfl,(hs.same hr).1,fun e' he' => ?_⟩⟩
    simp only [ratings,RateOp.exec,List.mem_append,List.mem_singleton]
    rcases (hs.same hr).2 e' he' with h | h
    · exact .inl (.inl h)
    · rcases List.mem_cons.mp h with rfl | h
      · exact .inl (.inr rfl)
      · exact .inr h

theorem queueContract_keeps (ext : Externals) (db₀ : Db) :
    (ratings ext).Keeps pushedBetweenRounds queueContract (Starts db₀) where
  rely_refl _ := sameQueue_refl
  rely_trans _ _ _ _ h h' := ⟨h'.queue.trans h.queue,h'.reading.trans h.reading,
    h'.waiting.trans h.waiting,h'.pushed.trans h.pushed,h'.handed.trans h.handed⟩
  distinct l := by simp [ratings]
  init := by
    rintro _ ⟨now,rfl⟩ l _
    exact ⟨rfl,rfl⟩
  start := by
    intro l s s' hl l' _ _
    cases hl
    exact ⟨sameQueue_refl _,fun h => h⟩
  code := by
    intro l s s' hb hidle hl
    cases hl
    cases hb
    exact jobUpdateRateEvents_flushes hidle.2
  other := by
    intro l l' op ch ls s hco _ hmem hb hknown _ hd
    cases hb
    have hne : l ≠ .updateRateEvents := by simpa [ratings] using hco
    refine sameQueue_exec ch (flushes_of_may hne hknown) fun e he => ?_
    subst he
    simp [System.Demand.check,hmem] at hd
  idle := by
    intro l l' op ch ls s hne hb hknown _ hidle
    cases hb
    have hop := flushes_of_may hne.symm hknown
    by_cases hpush : ∃ e, op = .push e
    · obtain ⟨e,rfl⟩ := hpush
      simpa [ratings,queueContract,RateOp.exec,hidle.1] using hidle
    · have hsame := sameQueue_exec (s := s) (l := l) ch hop fun e he => hpush ⟨e,he⟩
      exact ⟨hsame.reading.trans hidle.1,hsame.waiting.trans hidle.2⟩
  env := by
    intro e ls s s' _ he
    cases he
    exact ⟨fun _ l _ => ⟨fun _ => ⟨rfl,rfl,rfl,rfl,rfl⟩,fun h => h⟩,fun h => by cases h⟩

end

def RatingState.NoneLost (s : RatingState) : Prop :=
  ∀ e ∈ s.pushed, e ∈ s.handed ∨ e ∈ s.queue

theorem RatingState.NoneLost.same {s s' : RatingState} (h : s.NoneLost) (hs : s.SameQueue s') :
    s'.NoneLost := by
  intro e he
  rw [hs.handed,hs.queue]
  exact h e (hs.pushed ▸ he)

theorem RatingState.NoneLost.exec {l : Rater} {op : RateOp} {s : RatingState} (ch : RateChoice)
    (hpre : queueContract.Pre l op s) (h : s.NoneLost) : (op.exec l ch s).1.NoneLost := by
  cases op with
  | push e =>
    simp only [RateOp.exec]
    split_ifs
    · exact h
    · intro e' he'
      simp only [List.mem_append,List.mem_singleton] at he' ⊢
      rcases he' with he' | rfl
      · exact (h e' he').imp_right .inl
      · exact .inr (.inr rfl)
  | sendEvent e =>
    intro e' he'
    exact (h e' he').imp_left (List.mem_append_left _)
  | releaseQueue =>
    intro e' he'
    simp only [RateOp.exec,List.mem_append] at he' ⊢
    rcases he' with he' | he'
    · exact (h e' he').imp_right .inl
    · exact .inr (.inr he')
  | clearQueue =>
    intro e' he'
    exact .inl ((h e' he').elim id (hpre e'))
  | readQueue => exact h
  | _ => exact h.same (sameQueue_exec ch rfl fun e he => by cases he)

/-- In every run in which no event is pushed during a round of the job, no event is lost. -/
theorem rating_events_kept (ext : Externals) (db₀ : Db)
    (c : Config RatingState Rater RateOp RateOp.Res MostroError)
    (h : (ratings ext).Reach pushedBetweenRounds (Starts db₀) c) :
    ∀ e ∈ c.shared.pushed, e ∈ c.shared.handed ∨ e ∈ c.shared.queue := by
  have hknown (c : Config RatingState Rater RateOp RateOp.Res MostroError)
      (hc : (ratings ext).Reach pushedBetweenRounds (Starts db₀) c) (l : Rater) (op : RateOp)
      (hnext : c.AboutTo l op) : l.may op :=
    hc.only (by simp [ratings]) (only_code ext) hnext
  have hkeeps := queueContract_keeps ext db₀
  refine (h.together (I := RatingState.NoneLost) (P := fun _ _ => True) ?_ ?_ ?_ ?_).1
  · rintro _ ⟨now,rfl⟩ e he
    cases he
  · intro l s s' hl hs
    cases hl
    exact ⟨hs,trivial,fun _ _ => trivial⟩
  · intro c hc l op ch hnext _ hs _
    refine ⟨hs.exec ch ?_,fun _ _ => trivial⟩
    by_cases hl : l = .updateRateEvents
    · exact hkeeps.pre hknown hc hnext hl
    · -- a handler does not clear the queue
      have hop := flushes_of_may hl (hknown c hc l op hnext)
      cases op with
      | clearQueue => cases hop
      | _ => trivial
  · intro e ls s s' _ he hs
    cases he
    exact ⟨hs,fun _ _ => trivial⟩

def rateThenFlush : List (Event Rater RateChoice Nat) :=
  buyerRates ++ .start .updateRateEvents :: List.replicate 4 (.step 0 .ok)

theorem rating_events_kept_round :
    ∃ c, (ratings plainCore).Reach pushedBetweenRounds (Starts finishedTrade) c ∧
      c.shared.pushed.length = 1 ∧
      ∀ e ∈ c.shared.pushed, e ∈ c.shared.handed ∨ e ∈ c.shared.queue := by
  have hrun : ∃ c, (ratings plainCore).Reach pushedBetweenRounds (Starts finishedTrade) c ∧
      c.shared.pushed.length = 1 :=
    System.exists_reach_of_play rateThenFlush ⟨0,rfl⟩ (by decide +kernel)
  obtain ⟨c,hc,hpushed⟩ := hrun
  exact ⟨c,hc,hpushed,rating_events_kept plainCore finishedTrade c hc⟩

/-- The job is sending the event of the buyer's rating when the seller rates: the seller's event
waits until the job lets go of the queue, enters it, and is cleared with what the job had read. -/
def pushDuringRound : List (Event Rater RateChoice Nat) :=
  buyerRates ++ .start .updateRateEvents :: .step 0 .ok ::
    .start (.rate 1 { orderId := some 1, sender := plainKey 'b', rating := some 5 }) ::
    List.replicate 9 (.step 1 .ok) ++ List.replicate 3 (.step 0 .ok)

theorem rating_event_cleared_unsent :
    ∃ c, (ratings plainCore).Reach .none (Starts finishedTrade) c ∧ c.tasks.isEmpty = true ∧
      ∃ e ∈ c.shared.pushed, e ∉ c.shared.handed ∧ e ∉ c.shared.queue :=
  System.exists_reach_of_play pushDuringRound ⟨0,rfl⟩ (by decide +kernel)

end Mostro.Ratings
