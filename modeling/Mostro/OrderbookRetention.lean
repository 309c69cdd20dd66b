import Mostro.PublisherContracts

set_option autoImplicit false

/-!
A failed publication of an order revision stays queued until a publication that is not older
succeeds, its row is gone, or the reconciler gives up on it.  A failure recorded by a handler adds
to the attempts that earlier failures used up, so a new transition is retried before the reconciler
gives up only where attempts were left when it failed.
-/

namespace Mostro.Orderbook

open Interleaving

variable {id : Uuid} {later : List Happening} {g : Nat} {x : Happening} {e : Drained}

def Fresh (l : Publisher) (id : Uuid) (later : List Happening) : Prop :=
  l ≠ .reconciler ∧ .retried id ∉ later

inductive Kept (s : Book) (l : Publisher) (id : Uuid) (g : Nat) (later : List Happening) : Prop
  | queued {e : FailedPublish} : s.queue.lookup id = some e → g ≤ e.generation → Kept s l id g later
  | drained {e : Drained} : e ∈ s.batch → e.1 = id → g ≤ e.2.1 →
      (Fresh l id later → e.2.2 < maxOrderbookRepublishAttempts) → Kept s l id g later
  | accepted {g' : Nat} : g ≤ g' → .accepted id g' ∈ s.history → Kept s l id g later
  | vanished : .vanished id ∈ later → Kept s l id g later
  | dropped (l₁ l₂ : List Happening) : later = l₁ ++ .gaveUp id :: l₂ →
      l = .reconciler ∨ .retried id ∈ l₂ → Kept s l id g later

structure Retained (s : Book) : Prop where
  within : ∀ id, awaitsRetry id s.history = true → ∀ e, s.queue.lookup id = some e →
    e.attempts < maxOrderbookRepublishAttempts
  kept : ∀ later earlier l id g, s.history = later ++ .recorded l id g :: earlier →
    Kept s l id g later
  recorded : ∀ later earlier l id g, s.history = later ++ .refused l id g :: earlier →
    owes l s.history = some (id,g) ∨
      ∃ l₁ l₂ g', later = l₁ ++ .recorded l id g' :: l₂ ∧ g ≤ g'

theorem Fresh.tail {l : Publisher} {h : Happening} (hf : Fresh l id (h :: later)) :
    Fresh l id later :=
  ⟨hf.1,fun hr => hf.2 (List.mem_cons_of_mem _ hr)⟩

theorem Kept.push {s s' : Book} {l : Publisher} {h : Happening} (hk : Kept s l id g later)
    (hh : s'.history = h :: s.history)
    (hq : ∀ e, s.queue.lookup id = some e → g ≤ e.generation → Kept s' l id g (h :: later))
    (hb : ∀ e ∈ s.batch, e.1 = id → g ≤ e.2.1 →
      (Fresh l id later → e.2.2 < maxOrderbookRepublishAttempts) → Kept s' l id g (h :: later)) :
    Kept s' l id g (h :: later) := by
  cases hk with
  | queued he hg => exact hq _ he hg
  | drained he hid hg hfresh => exact hb _ he hid hg hfresh
  | accepted hg hacc => exact .accepted hg (by simp [hh,hacc])
  | vanished hv => exact .vanished (List.mem_cons_of_mem _ hv)
  | dropped l₁ l₂ hlater hretried => exact .dropped (h :: l₁) l₂ (by rw [hlater]; rfl) hretried

theorem Kept.frame {s s' : Book} {l : Publisher} (hk : Kept s l id g later)
    (hh : s'.history = s.history)
    (hq : ∀ e, s.queue.lookup id = some e → g ≤ e.generation → Kept s' l id g later)
    (hb : ∀ e ∈ s.batch, e.1 = id → g ≤ e.2.1 →
      (Fresh l id later → e.2.2 < maxOrderbookRepublishAttempts) → Kept s' l id g later) :
    Kept s' l id g later := by
  cases hk with
  | queued he hg => exact hq _ he hg
  | drained he hid hg hfresh => exact hb _ he hid hg hfresh
  | accepted hg hacc => exact .accepted hg (hh ▸ hacc)
  | vanished hv => exact .vanished hv
  | dropped l₁ l₂ hlater hretried => exact .dropped l₁ l₂ hlater hretried

section

variable {s s' : Book} {l : Publisher} {ch : BookChoice} {b : List Drained}

theorem Retained.of_same (h : Retained s) (hq : s'.queue = s.queue) (hb : s'.batch = s.batch)
    (hh : s'.history = s.history) : Retained s' := by
  refine ⟨hh ▸ hq ▸ h.within,fun later earlier l id g he => ?_,hh ▸ h.recorded⟩
  refine (h.kept later earlier l id g (hh ▸ he)).frame hh
    (fun e he hg => ?_) fun e he hid hg hf => ?_
  · exact .queued (hq ▸ he) hg
  · exact .drained (hb ▸ he) hid hg hf

def Happening.isQuiet : Happening → Bool
  | .refused _ _ _ | .recorded _ _ _ => false
  | _ => true

theorem awaitsRetry_of_quiet (hx : x.isQuiet = true) {h : List Happening}
    (ha : awaitsRetry id (x :: h) = true) : awaitsRetry id h = true := by
  cases x with
  | retried i => exact (Bool.and_eq_true_iff.mp ha).2
  | refused _ _ _ => cases hx
  | recorded _ _ _ => cases hx
  | _ => exact ha

theorem owes_of_quiet (hx : x.isQuiet = true) {h : List Happening} :
    owes l (x :: h) = owes l h := by
  cases x with
  | refused _ _ _ => cases hx
  | recorded _ _ _ => cases hx
  | _ => rfl

theorem Retained.recorded_push (h : Retained s) (hx : ∀ l id g, x ≠ .refused l id g)
    (ho : ∀ l id g, owes l s.history = some (id,g) → owes l (x :: s.history) = some (id,g) ∨
      ∃ g', x = .recorded l id g' ∧ g ≤ g') {earlier : List Happening} {l : Publisher}
    (he : x :: s.history = later ++ .refused l id g :: earlier) :
    owes l (x :: s.history) = some (id,g) ∨
      ∃ l₁ l₂ g', later = l₁ ++ .recorded l id g' :: l₂ ∧ g ≤ g' := by
  rcases List.cons_eq_append_iff.mp he with ⟨rfl,hhead⟩ | ⟨later,rfl,htail⟩
  · exact absurd (List.cons.inj hhead).1.symm (hx l id g)
  · rcases h.recorded later earlier l id g htail with howes | ⟨l₁,l₂,g',rfl,hg⟩
    · rcases ho l id g howes with howes | ⟨g',rfl,hg⟩
      · exact .inl howes
      · exact .inr ⟨[],later,g',rfl,hg⟩
    · exact .inr ⟨x :: l₁,l₂,g',rfl,hg⟩

theorem Retained.quiet (hx : x.isQuiet = true) (h : Retained s) (hh : s'.history = x :: s.history)
    (hq : s'.queue = s.queue)
    (hb : ∀ later l id g e, e ∈ s.batch → e.1 = id → g ≤ e.2.1 →
      (Fresh l id later → e.2.2 < maxOrderbookRepublishAttempts) → Kept s' l id g (x :: later)) :
    Retained s' := by
  refine ⟨fun id ha e he => ?_,fun later earlier l id g he => ?_,fun later earlier l id g he => ?_⟩
  · rw [hh] at ha
    exact h.within id (awaitsRetry_of_quiet hx ha) e (hq ▸ he)
  · rw [hh] at he
    rcases List.cons_eq_append_iff.mp he with ⟨rfl,hhead⟩ | ⟨later,rfl,htail⟩
    · rw [← (List.cons.inj hhead).1] at hx
      cases hx
    · refine (h.kept later earlier l id g htail).push hh (fun e he hg => ?_) fun e =>
        hb later l id g e
      exact .queued (hq ▸ he) hg
  · rw [hh] at he ⊢
    refine h.recorded_push (fun l id g hl => ?_) (fun l id g ho => ?_) he
    · rw [hl] at hx
      cases hx
    · exact .inl ((owes_of_quiet hx).trans ho)

theorem Retained.refuse (h : Retained s) (ho : owes l s.history = none) :
    Retained (s.log (.refused l id g)) := by
  refine ⟨h.within,fun later earlier l' id' g' he => ?_,fun later earlier l' id' g' he => ?_⟩
  · rcases List.cons_eq_append_iff.mp he with ⟨rfl,hhead⟩ | ⟨later,rfl,htail⟩
    · cases (List.cons.inj hhead).1
    · exact (h.kept later earlier l' id' g' htail).push rfl (fun e he hg => .queued he hg)
        fun e he hid hg hf => .drained he hid hg fun hfr => hf hfr.tail
  · simp only [Book.log,owes]
    rcases List.cons_eq_append_iff.mp he with ⟨rfl,hhead⟩ | ⟨later,rfl,htail⟩
    · cases (List.cons.inj hhead).1
      exact .inl (if_pos rfl)
    · rcases h.recorded later earlier l' id' g' htail with howes | ⟨l₁,l₂,g'',rfl,hle⟩
      · split_ifs with hl
        · rw [← hl,ho] at howes
          cases howes
        · exact .inl howes
      · exact .inr ⟨_ :: l₁,l₂,g'',rfl,hle⟩

theorem Retained.within_mark {id' : Uuid} {e : FailedPublish} (h : Retained s)
    (hcalm : l = .reconciler → s.Calm id)
    (hleft : l ≠ .reconciler → ∀ e, s.queue.lookup id = some e →
      e.attempts + 1 < maxOrderbookRepublishAttempts)
    (ha : awaitsRetry id' (.recorded l id g :: s.history) = true)
    (he : (markOrderbookPublishFailedAt s.queue id g).lookup id' = some e) :
    e.attempts < maxOrderbookRepublishAttempts := by
  by_cases hid : id' = id
  · subst hid
    obtain ⟨e',he',_,hnew,hold⟩ := lookup_mark s.queue id' g
    obtain rfl : e = e' := Option.some.inj (he.symm.trans he')
    cases hq : s.queue.lookup id' with
    | none =>
      have := hnew hq
      simp only [maxOrderbookRepublishAttempts]
      omega
    | some old =>
      have hle := (hold old hq).2
      by_cases hl : l = .reconciler
      · have := (hcalm hl).2 (by simpa [awaitsRetry,hl] using ha) old hq
        omega
      · have := hleft hl old hq
        omega
  · have hne : (id == id') = false := by simpa using fun h => hid h.symm
    refine h.within id' ?_ e ((lookup_mark_ne hid).symm.trans he)
    simpa [awaitsRetry,hne] using ha

theorem Retained.mark (h : Retained s) (hcalm : l = .reconciler → s.Calm id)
    (hleft : l ≠ .reconciler → ∀ e, s.queue.lookup id = some e →
      e.attempts + 1 < maxOrderbookRepublishAttempts)
    (ho : ∀ id' g', owes l s.history = some (id',g') → id' = id ∧ g' ≤ g) :
    Retained { s.log (.recorded l id g) with
      queue := markOrderbookPublishFailedAt s.queue id g } := by
  obtain ⟨e',he',hge,_,hold⟩ := lookup_mark s.queue id g
  refine ⟨fun id' ha e he => h.within_mark hcalm hleft ha he,fun later earlier l' id' g' he => ?_,
    fun later earlier l' id' g' he => ?_⟩
  · rcases List.cons_eq_append_iff.mp he with ⟨rfl,hhead⟩ | ⟨later,rfl,htail⟩
    · cases (List.cons.inj hhead).1
      exact .queued he' hge
    · refine (h.kept later earlier l' id' g' htail).push rfl (fun old hq hg => ?_)
        fun e he hid hg hf => .drained he hid hg fun hfr => hf hfr.tail
      by_cases hid : id' = id
      · subst hid
        exact .queued he' (hg.trans (hold old hq).1)
      · exact .queued ((lookup_mark_ne hid).trans hq) hg
  · refine h.recorded_push (x := .recorded l id g) (fun _ _ _ hx => nomatch hx)
      (fun l'' id'' g'' howes => ?_) he
    by_cases hl : l'' = l
    · subst hl
      obtain ⟨rfl,hle⟩ := ho id'' g'' howes
      exact .inr ⟨g,rfl,hle⟩
    · left
      simpa [owes,Ne.symm hl] using howes

theorem Retained.clear (h : Retained s) (hacc : .accepted id g ∈ s.history) :
    Retained { s with queue := clearOrderbookPublishFailureUpTo s.queue id g } := by
  refine ⟨fun id' ha e he => h.within id' ha e (lookup_of_clear he),
    fun later earlier l' id' g' he => ?_,h.recorded⟩
  refine (h.kept later earlier l' id' g' he).frame rfl (fun e he hg => ?_) fun e he hid hg hf =>
    .drained he hid hg hf
  rcases lookup_clear id g he with he | ⟨rfl,hle⟩
  · exact .queued he hg
  · exact .accepted (hg.trans hle) hacc

theorem mem_drained {entries : List Drained} (he : e ∈ entries) : e ∈ ch.drained entries := by
  unfold BookChoice.drained
  split
  next chosen =>
    split
    next hperm => exact (List.isPerm_iff.mp hperm).mem_iff.mpr he
    next => exact he
  next => exact he

theorem Retained.drain (h : Retained s) (hb : s.batch = []) :
    Retained { s with
      queue := ∅, batch := ch.drained (takeFailedOrderbookPublishes s.queue) } := by
  refine ⟨fun id ha e he => by simp at he,fun later earlier l id g he => ?_,h.recorded⟩
  refine (h.kept later earlier l id g he).frame rfl (fun e hq hg => ?_) fun e hmem => ?_
  · refine .drained (e := (id,e.generation,e.attempts))
      (mem_drained (mem_takeFailed.mpr hq)) rfl hg ?_
    intro hf
    exact h.within id (he ▸ awaitsRetry_of_recorded hf.1 hf.2) e hq
  · simp [hb] at hmem

theorem Retained.requeue (h : Retained s) (hb : s.batch = e :: b)
    (hlt : e.2.2 < maxOrderbookRepublishAttempts) :
    Retained { s with
      queue := requeueOrderbookPublishFailure s.queue e.1 e.2.1 e.2.2, batch := s.batch.tail } := by
  obtain ⟨e',he',hge,hnew,hold⟩ := lookup_requeue s.queue e.1 e.2.1 e.2.2
  refine ⟨fun id ha f hf => ?_,fun later earlier l id g he => ?_,h.recorded⟩
  · by_cases hid : id = e.1
    · subst hid
      obtain rfl : f = e' := Option.some.inj (hf.symm.trans he')
      cases hq : s.queue.lookup e.1 with
      | none =>
        rw [hnew hq]
        exact hlt
      | some old =>
        rw [(hold old hq).2]
        exact max_lt (h.within e.1 ha old hq) hlt
    · exact h.within id ha f ((lookup_requeue_ne hid).symm.trans hf)
  · refine (h.kept later earlier l id g he).frame rfl
      (fun f hf hg => ?_) fun f hf hid hg hfresh => ?_
    · by_cases hid : id = e.1
      · subst hid
        exact .queued he' (hg.trans (hold f hf).1)
      · exact .queued ((lookup_requeue_ne hid).trans hf) hg
    · rw [hb] at hf
      rcases List.mem_cons.mp hf with rfl | hf
      · subst hid
        exact .queued he' (hg.trans hge)
      · exact .drained (by simpa [hb] using hf) hid hg hfresh

theorem Retained.deal (hx : x.isQuiet = true) (h : Retained s) (hb : s.batch = e :: b)
    (hgone : ∀ later l g, (Fresh l e.1 later → e.2.2 < maxOrderbookRepublishAttempts) →
      Kept { s.log x with batch := s.batch.tail } l e.1 g (x :: later)) :
    Retained { s.log x with batch := s.batch.tail } := by
  refine h.quiet hx rfl rfl fun later l id g f hf hid hg hfresh => ?_
  rw [hb] at hf
  rcases List.mem_cons.mp hf with rfl | hf
  · subst hid
    exact hgone later l g hfresh
  · exact .drained (by simpa [hb] using hf) hid hg fun hfr => hfresh hfr.tail

theorem Retained.giveUp (h : Retained s) (hb : s.batch = e :: b)
    (hmax : maxOrderbookRepublishAttempts ≤ e.2.2) :
    Retained { s.log (.gaveUp e.1) with batch := s.batch.tail } := by
  refine h.deal rfl hb fun later l g hfresh => .dropped [] later rfl ?_
  by_contra hnot
  obtain ⟨hl,hretried⟩ := not_or.mp hnot
  exact absurd (hfresh ⟨hl,hretried⟩) (Nat.not_lt.mpr hmax)

theorem Retained.op {op : BookOp} {ls : List Publisher} (h : Retained s)
    (hk : op.reconciles = true → l = .reconciler) (hpre : op.Pre l s)
    (hd : attemptsLeft.onOp l op ch ls s) : Retained (op.exec l ch s).1 := by
  have hlog {x : Happening} (hx : x.isQuiet = true) : Retained (s.log x) := by
    refine h.quiet hx rfl rfl fun later l id g e he hid hg hf => ?_
    exact .drained he hid hg fun hfr => hf hfr.tail
  cases op with
  | orderToTags order =>
    simp only [BookOp.exec]
    split_ifs
    · exact hlog rfl
    · exact h
    · exact h
  | stampOrderbookEvent id t => exact h.of_same rfl rfl rfl
  | tryStampOrderbookEventQuiescent id q =>
    simp only [BookOp.exec]
    split
    · exact (hlog rfl).of_same rfl rfl rfl
    · exact h
  | newOrderEvent => exact h
  | updateOrder order =>
    simp only [BookOp.exec]
    split_ifs
    · exact h
    · exact h.of_same rfl rfl rfl
  | sendEvent id g =>
    simp only [BookOp.exec]
    split_ifs
    · exact hlog rfl
    · exact h.refuse hpre
  | nextGeneration => exact h.of_same rfl rfl rfl
  | markFailedAt id g =>
    exact h.mark hpre.1 (fun hl e he => (attemptsLeft_mark hl hd he).1) hpre.2
  | clearUpTo id g => exact h.clear hpre.2
  | takeFailed => exact h.drain (hpre.2 (hk rfl))
  | giveUp e =>
    obtain ⟨hmax,b,hat⟩ := hpre
    exact h.giveUp (hat.2 (hk rfl)) hmax
  | orderById id =>
    obtain ⟨e,b,rfl,hat⟩ := hpre
    simp only [BookOp.exec]
    split_ifs
    · exact h
    · split
      · exact h
      · exact h.deal rfl (hat.2 (hk rfl)) fun later l g _ => .vanished List.mem_cons_self
  | requeue e =>
    obtain ⟨hlt,b,hat⟩ := hpre
    exact h.requeue (hat.2 (hk rfl)) hlt

end

theorem reach_retained {c : BookState} (hc : orderbook.Reach attemptsLeft Book.Initial c) :
    Retained c.shared := by
  induction hc with
  | init hs =>
    obtain ⟨hq,hb,hh⟩ := hs
    refine ⟨fun id _ e he => ?_,fun later earlier l id g he => ?_,fun later earlier l id g he => ?_⟩
    · simp [hq] at he
    · simp [hh] at he
    · simp [hh] at he
  | step hr hm hs ih =>
    rcases System.step_shared hm hs with ⟨l,hl⟩ | ⟨l,op,ch,hnext,hd,hexec⟩ | ⟨m,_,he⟩
    · rw [← Option.some.inj hl]
      exact ih
    · rw [hexec]
      exact ih.op (reconciles_only hr hnext) (reach_pre hr hnext) hd
    · rw [← Option.some.inj he]
      cases m <;> exact ih.of_same rfl rfl rfl

/-- The operations by which a refused revision of the order gets recorded. -/
def BookOp.records (id : Uuid) : BookOp → Bool
  | .nextGeneration => true
  | .markFailedAt i _ => i == id
  | _ => false

theorem owes_records {c : BookState} (hc : orderbook.Reach attemptsLeft Book.Initial c)
    {l : Publisher} (ho : owes l c.shared.history = some (id,g)) :
    ∃ op, c.AboutTo l op ∧ op.records id = true := by
  have hholds := bookContract_keeps.holds (fun _ hc _ _ hnext => reconciles_only hc hnext) hc
  have hnot : ¬ owes l c.shared.history = none := by simp [ho]
  have hrunning : ∃ t ∈ c.tasks, t.label = l := by
    by_contra hnone
    exact hnot (hholds.idle l trivial fun t ht hl => hnone ⟨t,ht,hl⟩).1
  obtain ⟨⟨_,code⟩,ht,rfl⟩ := hrunning
  obtain ⟨s,hr,hsat⟩ := hholds.sat _ ht trivial
  cases code with
  | ret a => exact absurd (Book.At.since hsat hr).1 hnot
  | fail e => exact absurd (Book.At.since hsat hr).1 hnot
  | call op k =>
    have hnext : c.AboutTo _ op := ⟨k,ht⟩
    refine ⟨op,hnext,?_⟩
    have hpre := reach_pre hc hnext
    cases op with
    | nextGeneration => rfl
    | markFailedAt i g' => simpa [BookOp.records] using (hpre.2 id g ho).1.symm
    | clearUpTo _ _ => exact absurd hpre.1 hnot
    | takeFailed => exact absurd hpre.1 hnot
    | giveUp _ =>
      obtain ⟨_,b,hat⟩ := hpre
      exact absurd hat.1 hnot
    | orderById _ =>
      obtain ⟨_,b,_,hat⟩ := hpre
      exact absurd hat.1 hnot
    | requeue _ =>
      obtain ⟨_,b,hat⟩ := hpre
      exact absurd hat.1 hnot
    | _ => exact absurd hpre hnot

theorem batch_running {c : BookState} (hc : orderbook.Reach attemptsLeft Book.Initial c)
    (he : e ∈ c.shared.batch) : .reconciler ∈ c.running := by
  have hholds := bookContract_keeps.holds (fun _ hc _ _ hnext => reconciles_only hc hnext) hc
  by_contra hnone
  have hidle : c.shared.At .reconciler [] := hholds.idle .reconciler trivial fun t ht hl =>
    hnone (List.mem_map.mpr ⟨t,ht,hl⟩)
  simp [hidle.2 rfl] at he

/-- A refused publication is about to be recorded, queued, or in the batch being processed, until a
publication that is not older was accepted, its row was found gone, or the reconciler gave up on
the order; and it gives up on the failure of a handler only after it retried the order. -/
theorem failed_publication_retained {c : BookState}
    (hc : orderbook.Reach attemptsLeft Book.Initial c) {l : Publisher} {id : Uuid} {g : Nat}
    {later earlier : List Happening}
    (h : c.shared.history = later ++ .refused l id g :: earlier) :
    (∃ op, c.AboutTo l op ∧ op.records id = true) ∨
    (∃ e, c.shared.queue.lookup id = some e ∧ g ≤ e.generation) ∨
    (.reconciler ∈ c.running ∧ ∃ e ∈ c.shared.batch, e.1 = id ∧ g ≤ e.2.1) ∨
    (∃ g', g ≤ g' ∧ .accepted id g' ∈ c.shared.history) ∨
    .vanished id ∈ later ∨
    ∃ l₁ l₂, later = l₁ ++ .gaveUp id :: l₂ ∧ (l = .reconciler ∨ .retried id ∈ l₂) := by
  have hretained := reach_retained hc
  rcases hretained.recorded later earlier l id g h with ho | ⟨l₁,l₂,g',rfl,hle⟩
  · exact .inl (owes_records hc ho)
  refine .inr ?_
  have hkept := hretained.kept l₁ (l₂ ++ .refused l id g :: earlier) l id g' (by simpa using h)
  cases hkept with
  | queued he hg => exact .inl ⟨_,he,hle.trans hg⟩
  | drained he hid hg _ => exact .inr (.inl ⟨batch_running hc he,_,he,hid,hle.trans hg⟩)
  | accepted hg hacc => exact .inr (.inr (.inl ⟨_,hle.trans hg,hacc⟩))
  | vanished hv => exact .inr (.inr (.inr (.inl (List.mem_append_left _ hv))))
  | dropped k₁ k₂ hlater hretried =>
    refine .inr (.inr (.inr (.inr ⟨k₁,k₂ ++ .recorded l id g' :: l₂,?_,?_⟩)))
    · simp [hlater]
    · exact hretried.imp_right fun hr => List.mem_append_left _ hr

def outageOrder : Order := { id := 1, kind := .sell, status := .pending, creatorPubkey := 7 }

def updater (tid : Nat) (status : Status) : Publisher :=
  .handler tid (.update status outageOrder none)

def refusedUpdate (tid : Nat) (status : Status) : List (Event Publisher BookChoice BookMove) :=
  [.start (updater tid status),.step 0 .ok,.step 0 .ok,.step 0 .ok,
   .step 0 (.send .rejected),.step 0 .ok]

def refusedPass : List (Event Publisher BookChoice BookMove) :=
  [.env (.tick 120),.start .reconciler,.step 0 .ok,.step 0 .ok,.step 0 .ok,.step 0 .ok,
   .step 0 .ok,.step 0 .ok,.step 0 (.send .rejected),.step 0 .ok]

def refusal (l : Publisher) (g : Nat) : List Happening := [.recorded l 1 g,.refused l 1 g]

def refusedRetry (g : Nat) : List Happening := refusal .reconciler g ++ [.retried 1]

theorem initial_empty : Book.Initial {} := ⟨rfl,rfl,rfl⟩

theorem outage_retained :
    ∃ c, orderbook.Reach attemptsLeft Book.Initial c ∧
      c.shared.history = refusedRetry 2 ++ refusal (updater 1 .canceled) 1 ∧
      ((∃ op, c.AboutTo (updater 1 .canceled) op ∧ op.records 1 = true) ∨
      (∃ e, c.shared.queue.lookup 1 = some e ∧ 1 ≤ e.generation) ∨
      (.reconciler ∈ c.running ∧ ∃ e ∈ c.shared.batch, e.1 = 1 ∧ 1 ≤ e.2.1) ∨
      (∃ g', 1 ≤ g' ∧ .accepted 1 g' ∈ c.shared.history) ∨
      .vanished 1 ∈ refusedRetry 2 ++ [.recorded (updater 1 .canceled) 1 1] ∨
      ∃ l₁ l₂, refusedRetry 2 ++ [.recorded (updater 1 .canceled) 1 1] = l₁ ++ .gaveUp 1 :: l₂ ∧
        (updater 1 .canceled = .reconciler ∨ .retried 1 ∈ l₂)) := by
  obtain ⟨c,hc,hh⟩ := System.exists_reach_of_play (S := orderbook) (D := attemptsLeft)
    (.env (.write outageOrder) :: refusedUpdate 1 .canceled ++ refusedPass)
    (P := fun c => c.shared.history = refusedRetry 2 ++ refusal (updater 1 .canceled) 1)
    initial_empty (by decide +kernel)
  have hsplit : c.shared.history = (refusedRetry 2 ++ [.recorded (updater 1 .canceled) 1 1]) ++
      .refused (updater 1 .canceled) 1 1 :: [] := by
    rw [hh]
    rfl
  exact ⟨c,hc,hh,failed_publication_retained hc hsplit⟩

/-- The order fails to be published and three retries fail.  Its cancellation is then refused too,
which is the fifth attempt on the books, and the reconciler gives up on the order without ever
republishing it as canceled. -/
theorem canceled_revision_abandoned :
    ∃ c l g later earlier, orderbook.Reach System.Demand.none Book.Initial c ∧ c.tasks = [] ∧
      c.shared.history = later ++ .refused l 1 g :: earlier ∧ l ≠ .reconciler ∧
      c.shared.queue.lookup 1 = none ∧ c.shared.batch = [] ∧
      (c.shared.rows.lookup 1).isSome = true ∧ (∀ g', .accepted 1 g' ∉ c.shared.history) ∧
      .gaveUp 1 ∈ later ∧ .retried 1 ∉ later := by
  obtain ⟨c,hc,htasks,hh,hq,hb,hrow⟩ := System.exists_reach_of_play (S := orderbook)
    (D := System.Demand.none)
    (.env (.write outageOrder) :: refusedUpdate 1 .pending ++ refusedPass ++ refusedPass
      ++ refusedPass ++ refusedUpdate 2 .canceled ++ [.start .reconciler,.step 0 .ok,.step 0 .ok])
    (P := fun c => c.running = [] ∧ c.shared.history = .gaveUp 1 :: refusal (updater 2 .canceled) 5
      ++ refusedRetry 4 ++ refusedRetry 3 ++ refusedRetry 2 ++ refusal (updater 1 .pending) 1 ∧
      c.shared.queue.lookup 1 = none ∧ c.shared.batch = [] ∧
      (c.shared.rows.lookup 1).isSome = true) initial_empty (by decide +kernel)
  refine ⟨c,updater 2 .canceled,5,[.gaveUp 1,.recorded (updater 2 .canceled) 1 5],_,hc,
    List.map_eq_nil_iff.mp htasks,hh,nofun,hq,hb,hrow,fun g' => ?_,by simp,by simp⟩
  simp [hh,refusal,refusedRetry]

end Mostro.Orderbook
