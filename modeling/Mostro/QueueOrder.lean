import Mostro.MessageQueues

set_option autoImplicit false

/-!
Each queue gives up its messages in order.  What was pushed is what was removed followed by what is
queued, only the head is ever tried, and the head goes when `send_dm` succeeded or when it has
failed four times.  Each round of the job tries the head it found, which ends in a counted failure,
a removal, or a message that could not be serialized; the last of these is not counted.
-/

namespace Mostro.Outgoing

open Interleaving

/-- The message went after a `send_dm` that succeeded, or after four that failed and none that
succeeded. -/
def Left (x : Letter) (attempts : List (Letter × Outcome)) : Prop :=
  (∃ o, o.isOk = true ∧ ((attempts.filter (·.1 = x)).map (·.2)).head? = some o) ∨
    attempts.count (x,.failed) = 4 ∧ ∀ o, o.isOk = true → attempts.count (x,o) = 0

structure Outbox.Sound (b : Outbox) : Prop where
  split : b.enqueued = b.removed ++ b.queue
  serials : b.enqueued.map (·.serial) = List.range b.enqueued.length
  about : ∀ a ∈ b.attempts, a.1 ∈ b.removed ∨ b.queue.head? = some a.1
  ordered : b.attempts.Pairwise fun later earlier => earlier.1.serial ≤ later.1.serial
  left : ∀ x ∈ b.removed, Left x b.attempts
  found : ∀ x ∈ b.found, x ∈ b.removed ∨ b.queue.head? = some x
  served : ∀ x ∈ b.removed, b.found.count x ≤ b.tries x
  looks : ∀ x, b.found.count x ≤ 4 + b.attempts.count (x,.unserialized)

/-- The head has failed `failed` times, `retries` of them counted, and in `due` of the rounds that
found it it is still to be tried. -/
structure Outbox.Trying (x : Letter) (failed retries due : Nat) (b : Outbox) : Prop where
  sound : b.Sound
  head : b.queue.head? = some x
  notSent : ∀ o, o.isOk = true → b.attempts.count (x,o) = 0
  failed : b.attempts.count (x,.failed) = failed
  retries : b.retries = retries
  found : b.found.count x ≤ b.tries x + due

/-- The job is not at the queue; it is `due` there where the round has still to come to it. -/
structure Outbox.Resting (due : Nat) (b : Outbox) : Prop where
  sound : b.Sound
  retries : b.retries ≤ 3
  fresh : b.queue = [] → b.retries = 0
  trying : ∀ x, b.queue.head? = some x → b.Trying x b.retries b.retries due

structure Outbox.Leaving (x : Letter) (b : Outbox) : Prop where
  sound : b.Sound
  head : b.queue.head? = some x
  retries : b.retries = 0
  left : Left x b.attempts
  served : b.found.count x ≤ b.tries x

section

variable {b : Outbox} {x y : Letter} {o : Outcome} {f r due : Nat}

theorem serial_of_getElem? (h : b.Sound) {i : Nat} (hi : b.enqueued[i]? = some x) :
    x.serial = i := by
  have hmap := congrArg (·[i]?) h.serials
  simp only [List.getElem?_map,hi,Option.map_some] at hmap
  obtain ⟨hlt,heq⟩ := List.getElem?_eq_some_iff.mp hmap.symm
  rw [List.getElem_range] at heq
  exact heq.symm

theorem serial_of_head (h : b.Sound) (hx : b.queue.head? = some x) :
    x.serial = b.removed.length := by
  refine serial_of_getElem? h ?_
  rw [h.split,List.getElem?_append_right le_rfl,Nat.sub_self,← List.head?_eq_getElem?]
  exact hx

theorem serial_of_removed (h : b.Sound) (hy : y ∈ b.removed) : y.serial < b.removed.length := by
  obtain ⟨i,hi⟩ := List.mem_iff_getElem?.mp hy
  have hlt := (List.getElem?_eq_some_iff.mp hi).1
  have hserial : y.serial = i := by
    refine serial_of_getElem? h ?_
    rw [h.split,List.getElem?_append_left hlt]
    exact hi
  omega

theorem removed_lt_head (h : b.Sound) (hx : b.queue.head? = some x) (hy : y ∈ b.removed) :
    y.serial < x.serial := by
  rw [serial_of_head h hx]
  exact serial_of_removed h hy

theorem removed_ne_head (h : b.Sound) (hx : b.queue.head? = some x) (hy : y ∈ b.removed) :
    y ≠ x := fun heq => Nat.lt_irrefl _ (heq ▸ removed_lt_head h hx hy)

theorem unseen_of_ne (hremoved : y ∉ b.removed) (hhead : b.queue.head? ≠ some y) (h : b.Sound) :
    (∀ o, b.attempts.count (y,o) = 0) ∧ b.found.count y = 0 := by
  constructor
  · intro o
    refine List.count_eq_zero.mpr fun hmem => ?_
    exact (h.about _ hmem).elim hremoved hhead
  · refine List.count_eq_zero.mpr fun hmem => ?_
    exact (h.found _ hmem).elim hremoved hhead

theorem tries_eq (b : Outbox) (x : Letter) : b.tries x =
    b.attempts.count (x,.sent) + b.attempts.count (x,.unsent) + b.attempts.count (x,.failed) +
      b.attempts.count (x,.unserialized) := by
  unfold Outbox.tries
  induction b.attempts with
  | nil => rfl
  | cons a rest ih =>
    obtain ⟨y,o⟩ := a
    simp only [List.countP_cons,List.count_cons,ih]
    by_cases hy : y = x <;> cases o <;> simp [hy] <;> omega

theorem Outbox.Trying.tries (h : b.Trying x f r due) :
    b.tries x = f + b.attempts.count (x,.unserialized) := by
  rw [tries_eq,h.notSent .sent rfl,h.notSent .unsent rfl,h.failed]
  omega

theorem Outbox.Sound.enqueue (h : b.Sound) (m d : String) : (b.enqueue m d).Sound where
  split := by simp [Outbox.enqueue,h.split]
  serials := by simp [Outbox.enqueue,h.serials,List.range_succ]
  about := fun a ha => (h.about a ha).imp_right fun hhead => by simp [Outbox.enqueue,hhead]
  ordered := h.ordered
  left := h.left
  found := fun x hx => (h.found x hx).imp_right fun hhead => by simp [Outbox.enqueue,hhead]
  served := h.served
  looks := h.looks

theorem Outbox.Trying.enqueue (h : b.Trying x f r due) (m d : String) :
    (b.enqueue m d).Trying x f r due where
  sound := h.sound.enqueue m d
  head := by simp [Outbox.enqueue,h.head]
  notSent := h.notSent
  failed := h.failed
  retries := h.retries
  found := h.found

theorem Outbox.Leaving.enqueue (h : b.Leaving x) (m d : String) : (b.enqueue m d).Leaving x where
  sound := h.sound.enqueue m d
  head := by simp [Outbox.enqueue,h.head]
  retries := h.retries
  left := h.left
  served := h.served

theorem Outbox.Resting.enqueue (h : b.Resting due) (m d : String) :
    (b.enqueue m d).Resting due where
  sound := h.sound.enqueue m d
  retries := h.retries
  fresh := fun hempty => by simp [Outbox.enqueue] at hempty
  trying := fun x hx => by
    cases hq : b.queue with
    | cons y rest =>
      have hy : b.queue.head? = some y := by rw [hq]; rfl
      obtain rfl : y = x := by simpa [Outbox.enqueue,hq] using hx
      exact (h.trying y hy).enqueue m d
    | nil =>
      -- the message is the first of an empty queue, so it was never looked at
      have hxs : ⟨b.enqueued.length,m,d⟩ = x := by simpa [Outbox.enqueue,hq] using hx
      have hremoved : x ∉ b.removed := fun hmem => by
        have hlt := serial_of_removed h.sound hmem
        have hlen := congrArg List.length h.sound.split
        simp only [hq,List.append_nil] at hlen
        rw [← hxs,hlen] at hlt
        exact Nat.lt_irrefl _ hlt
      obtain ⟨hnone,hfound⟩ := unseen_of_ne hremoved (by simp [hq]) h.sound
      exact ⟨h.sound.enqueue m d,hx,fun o _ => hnone o,(hnone _).trans (h.fresh hq).symm,rfl,
        hfound.trans_le (Nat.zero_le _)⟩

theorem left_tried (hne : y ≠ x) (h : Left y b.attempts) : Left y ((x,o) :: b.attempts) := by
  have hne' : ¬ x = y := fun heq => hne heq.symm
  simpa [Left,hne',List.count_cons] using h

theorem Outbox.Sound.tried (h : b.Sound) (hx : b.queue.head? = some x) : (b.tried x o).Sound where
  split := h.split
  serials := h.serials
  about := fun a ha => by
    rcases List.mem_cons.mp ha with rfl | ha
    · exact .inr hx
    · exact h.about a ha
  ordered := by
    refine List.pairwise_cons.mpr ⟨fun a ha => ?_,h.ordered⟩
    rcases h.about a ha with ha | ha
    · exact (removed_lt_head h hx ha).le
    · rw [hx] at ha
      exact (Option.some.inj ha ▸ le_rfl)
  left := fun y hy => left_tried (removed_ne_head h hx hy) (h.left y hy)
  found := h.found
  served := fun y hy => (h.served y hy).trans (List.Sublist.countP_le (List.sublist_cons_self _ _))
  looks := fun y => (h.looks y).trans (Nat.add_le_add_left List.count_le_count_cons _)

theorem count_tried (y : Letter) (o' : Outcome) :
    (b.tried x o).attempts.count (y,o') =
      b.attempts.count (y,o') + if x = y ∧ o = o' then 1 else 0 := by
  simp [Outbox.tried,List.count_cons]

theorem tries_tried : (b.tried x o).tries x = b.tries x + 1 := by
  simp [Outbox.tries,Outbox.tried]

theorem Outbox.Resting.noteHead (h : b.Resting 0) : b.noteHead.Resting 1 := by
  cases hq : b.queue with
  | nil =>
    have htake : b.queue.take 1 = [] := by rw [hq]; rfl
    have hsame : b.noteHead = b := by rw [Outbox.noteHead,htake]; rfl
    rw [hsame]
    exact ⟨h.sound,h.retries,h.fresh,by simp [hq]⟩
  | cons x rest =>
    have hx : b.queue.head? = some x := by rw [hq]; rfl
    have htrying := h.trying x hx
    have hnoted : b.noteHead = { b with found := x :: b.found } := by simp [Outbox.noteHead,hq]
    have hsound : b.noteHead.Sound := by
      rw [hnoted]
      refine ⟨h.sound.split,h.sound.serials,h.sound.about,h.sound.ordered,h.sound.left,
        fun y hy => ?_,fun y hy => ?_,fun y => ?_⟩
      · rcases List.mem_cons.mp hy with rfl | hy
        · exact .inr hx
        · exact h.sound.found y hy
      · rw [List.count_cons_of_ne (removed_ne_head h.sound hx hy).symm]
        exact h.sound.served y hy
      · by_cases hy : x = y
        · subst hy
          have hfound := htrying.found
          have hle := h.retries
          rw [htrying.tries] at hfound
          simp only [List.count_cons_self]
          omega
        · rw [List.count_cons_of_ne hy]
          exact h.sound.looks y
    refine ⟨hsound,h.retries,h.fresh,fun y hy => ?_⟩
    obtain rfl : x = y := Option.some.inj (hx.symm.trans hy)
    refine ⟨hsound,hx,htrying.notSent,htrying.failed,rfl,?_⟩
    rw [hnoted]
    simp only [List.count_cons_self]
    exact Nat.succ_le_succ htrying.found

theorem Outbox.Trying.resting (h : b.Trying x r r due) (hr : r ≤ 3) : b.Resting due where
  sound := h.sound
  retries := h.retries ▸ hr
  fresh := fun hempty => by simpa [hempty] using h.head
  trying := fun y hy => by
    obtain rfl : x = y := Option.some.inj (h.head.symm.trans hy)
    obtain rfl := h.retries
    exact h

theorem Outbox.Resting.of_empty (h : b.Resting due) (hempty : b.queue = []) : b.Resting 0 :=
  ⟨h.sound,h.retries,h.fresh,by simp [hempty]⟩

theorem found_tried (h : b.Trying x f r due) (hdue : due ≤ 1) :
    (b.tried x o).found.count x ≤ (b.tried x o).tries x := by
  rw [tries_tried]
  exact h.found.trans (Nat.add_le_add_left hdue _)

theorem Outbox.Trying.unserialized (h : b.Trying x r r due) (hdue : due ≤ 1) :
    (b.tried x .unserialized).Trying x r r 0 where
  sound := h.sound.tried h.head
  head := h.head
  notSent := fun o ho => by
    have hne : ¬ Outcome.unserialized = o := by rintro rfl; cases ho
    simp [count_tried,h.notSent o ho,hne]
  failed := by simp [count_tried,h.failed]
  retries := h.retries
  found := found_tried h hdue

theorem Outbox.Trying.fails (h : b.Trying x r r due) (hdue : due ≤ 1) :
    (b.tried x .failed).Trying x (r + 1) r 0 where
  sound := h.sound.tried h.head
  head := h.head
  notSent := fun o ho => by
    have hne : ¬ Outcome.failed = o := by rintro rfl; cases ho
    simp [count_tried,h.notSent o ho,hne]
  failed := by simp [count_tried,h.failed]
  retries := h.retries
  found := found_tried h hdue

theorem Outbox.Sound.setRetries (h : b.Sound) (r : Nat) : { b with retries := r }.Sound :=
  ⟨h.split,h.serials,h.about,h.ordered,h.left,h.found,h.served,h.looks⟩

theorem Outbox.Trying.countRetry (h : b.Trying x (r + 1) r 0) :
    { b with retries := b.retries + 1 }.Trying x (r + 1) (r + 1) 0 :=
  ⟨h.sound.setRetries _,h.head,h.notSent,h.failed,congrArg (· + 1) h.retries,h.found⟩

theorem Outbox.Trying.gaveUp (h : b.Trying x 4 r 0) : { b with retries := 0 }.Leaving x :=
  ⟨h.sound.setRetries 0,h.head,rfl,.inr ⟨h.failed,h.notSent⟩,h.found⟩

theorem Outbox.Trying.sends (h : b.Trying x f r due) (hdue : due ≤ 1) (ho : o.isOk = true) :
    { b.tried x o with retries := 0 }.Leaving x :=
  ⟨(h.sound.tried h.head).setRetries 0,h.head,rfl,.inl ⟨o,ho,by simp [Outbox.tried]⟩,
    found_tried h hdue⟩

theorem Outbox.Leaving.remove (h : b.Leaving x) : b.remove.Resting 0 := by
  obtain ⟨rest,hq⟩ : ∃ rest, b.queue = x :: rest := List.head?_eq_some_iff.mp h.head
  have hremove : b.remove = { b with queue := rest, removed := b.removed ++ [x] } := by
    simp [Outbox.remove,hq]
  have hseen (y : Letter) (hy : y ∈ b.removed ∨ b.queue.head? = some y) :
      y ∈ b.removed ++ [x] := by
    rcases hy with hy | hy
    · exact List.mem_append_left _ hy
    · rw [h.head] at hy
      simp [Option.some.inj hy]
  have hsound : b.remove.Sound := by
    rw [hremove]
    refine ⟨by simp [h.sound.split,hq],h.sound.serials,fun a ha =>
      .inl (hseen _ (h.sound.about a ha)),
      h.sound.ordered,fun y hy => ?_,fun y hy => .inl (hseen _ (h.sound.found y hy)),fun y hy => ?_,
      h.sound.looks⟩
    · rcases List.mem_append.mp hy with hy | hy
      · exact h.sound.left y hy
      · exact List.mem_singleton.mp hy ▸ h.left
    · rcases List.mem_append.mp hy with hy | hy
      · exact h.sound.served y hy
      · exact List.mem_singleton.mp hy ▸ h.served
  have hretries : b.remove.retries = 0 := by rw [hremove]; exact h.retries
  refine ⟨hsound,by omega,fun _ => hretries,fun y hy => ?_⟩
  -- the next message was behind the head until now, so nothing is recorded of it
  have hy' : y ∉ b.remove.removed := fun hmem => removed_ne_head hsound hy hmem rfl
  have hyx : b.queue.head? ≠ some y := fun heq => hy' (by
    rw [hremove]
    exact hseen y (.inr heq))
  have hyr : y ∉ b.removed := fun hmem => hy' (by
    rw [hremove]
    exact hseen y (.inl hmem))
  obtain ⟨hnone,hfound⟩ := unseen_of_ne hyr hyx h.sound
  rw [hretries]
  refine ⟨hsound,hy,?_,?_,hretries,?_⟩
  · rw [hremove]
    exact fun o _ => hnone o
  · rw [hremove]
    exact hnone _
  · rw [hremove]
    exact hfound.trans_le (Nat.zero_le _)

end

structure MessageQueues.In (s : MessageQueues) (due : QueueName → Nat) (q : QueueName)
    (P : Outbox → Prop) : Prop where
  runs : s.panicked = false
  here : P (s.get q)
  others : ∀ q', q' ≠ q → (s.get q').Resting (due q')

structure MessageQueues.Rests (s : MessageQueues) (due : QueueName → Nat) : Prop where
  runs : s.panicked = false
  resting : ∀ q, (s.get q).Resting (due q)

structure MessageQueues.Grown (s s' : MessageQueues) : Prop where
  panicked : s'.panicked = s.panicked
  pushed : ∀ q, ∃ pushes : List (String × String),
    s'.get q = pushes.foldl (fun b p => b.enqueue p.1 p.2) (s.get q)

def MessageQueues.Sound (s : MessageQueues) : Prop :=
  s.panicked = false ∧ ∀ q, (s.get q).Sound

structure Pushable (P : Outbox → Prop) : Prop where
  enqueue : ∀ b m d, P b → P (b.enqueue m d)
  sound : ∀ b, P b → b.Sound

def queueContract : Contract MessageQueues Unit FlushOp where
  Binds _ := True
  Rely := fun _ s s' => s.Grown s'
  Known := fun _ _ _ _ => True
  Pre := fun _ _ s => s.Sound
  Idle := fun _ s => s.Rests fun _ => 0

section

variable {due : QueueName → Nat} {q : QueueName} {P P' : Outbox → Prop} {s s' : MessageQueues}
  {α : Type}

theorem MessageQueues.Grown.keeps (hs : s.Grown s') (hP : ∀ b m d, P b → P (b.enqueue m d))
    (h : P (s.get q)) : P (s'.get q) := by
  obtain ⟨pushes,heq⟩ := hs.pushed q
  rw [heq]
  exact List.foldlRecOn pushes _ h fun b hb p _ => hP b p.1 p.2 hb

theorem pushable_trying (x : Letter) (f r n : Nat) : Pushable (Outbox.Trying x f r n) :=
  ⟨fun _ m d hb => hb.enqueue m d,fun _ hb => hb.sound⟩

theorem pushable_resting (n : Nat) : Pushable (Outbox.Resting n) :=
  ⟨fun _ m d hb => hb.enqueue m d,fun _ hb => hb.sound⟩

theorem pushable_leaving (x : Letter) : Pushable (Outbox.Leaving x) :=
  ⟨fun _ m d hb => hb.enqueue m d,fun _ hb => hb.sound⟩

theorem MessageQueues.In.grown (h : s.In due q P) (hP : Pushable P) (hs : s.Grown s') :
    s'.In due q P :=
  ⟨hs.panicked.trans h.runs,hs.keeps hP.enqueue h.here,
    fun q' hq' => hs.keeps (pushable_resting _).enqueue (h.others q' hq')⟩

theorem MessageQueues.In.set {b : Outbox} (h : s.In due q P) (hb : P' b) :
    (s.set q b).In due q P' := by
  refine ⟨by simpa using h.runs,by simpa using hb,fun q' hq' => ?_⟩
  simpa [hq'] using h.others q' hq'

theorem MessageQueues.In.sound (h : s.In due q P) (hP : Pushable P) : s.Sound := by
  refine ⟨h.runs,fun q' => ?_⟩
  by_cases hq' : q' = q
  · exact hq' ▸ hP.sound _ h.here
  · exact (h.others q' hq').sound

theorem MessageQueues.Rests.grown (h : s.Rests due) (hs : s.Grown s') : s'.Rests due :=
  ⟨hs.panicked.trans h.runs,fun q => hs.keeps (pushable_resting _).enqueue (h.resting q)⟩

theorem MessageQueues.Rests.sound (h : s.Rests due) : s.Sound :=
  ⟨h.runs,fun q => (h.resting q).sound⟩

theorem MessageQueues.Rests.at (h : s.Rests due) (q : QueueName) :
    s.In due q (Outbox.Resting (due q)) :=
  ⟨h.runs,h.resting q,fun q' _ => h.resting q'⟩

theorem MessageQueues.In.rests (h : s.In due q (Outbox.Resting 0)) :
    s.Rests (Function.update due q 0) := by
  refine ⟨h.runs,fun q' => ?_⟩
  by_cases hq' : q' = q
  · subst hq'
    simpa using h.here
  · simpa [hq'] using h.others q' hq'

theorem sat_op {op : FlushOp} {k : op.Res → FlushM α}
    {Q : Except MostroError α → MessageQueues → Prop} (hP : Pushable P) (hs : s.In due q P)
    (h : ∀ s ch, s.In due q P →
      messageQueues.Sat .none queueContract () (k (op.exec ch s).2) Q (op.exec ch s).1) :
    messageQueues.Sat .none queueContract () (.call op k) Q s := by
  intro s₁ _ hr _
  have hs₁ := hs.grown hP hr
  exact ⟨hs₁.sound hP,fun ch _ => h s₁ ch hs₁⟩

theorem remove_sat {x : Letter} {k : Unit → FlushM α}
    {Q : Except MostroError α → MessageQueues → Prop} (hs : s.In due q (Outbox.Leaving x))
    (h : ∀ s, s.In due q (Outbox.Resting 0) →
      messageQueues.Sat .none queueContract () (k ()) Q s) :
    messageQueues.Sat .none queueContract () (.call (.remove q) k) Q s := by
  refine sat_op (pushable_leaving x) hs fun s ch hs => h _ ?_
  exact hs.set hs.here.remove

structure Outbox.Sent (x : Letter) (b : Outbox) : Prop where
  sound : b.Sound
  leaving : { b with retries := 0 }.Leaving x

theorem pushable_sent (x : Letter) : Pushable (Outbox.Sent x) :=
  ⟨fun _ m d hb => ⟨hb.sound.enqueue m d,hb.leaving.enqueue m d⟩,fun _ hb => hb.sound⟩

theorem sendDm_sat {x : Letter} {r : Nat} (hdue : due q ≤ 1)
    (hs : s.In due q (Outbox.Trying x r r (due q))) :
    messageQueues.Sat .none queueContract () (sendDm q x)
      (fun out s => (out = .ok true ∧ s.In due q (Outbox.Sent x)) ∨
        out = .ok false ∧ s.In due q (Outbox.Trying x (r + 1) r 0)) s := by
  have hfails {s : MessageQueues} (hs : s.In due q (Outbox.Trying x r r (due q))) :
      (s.set q ((s.get q).tried x .failed)).In due q (Outbox.Trying x (r + 1) r 0) :=
    hs.set (hs.here.fails hdue)
  have hsends {s : MessageQueues} (hs : s.In due q (Outbox.Trying x r r (due q))) {o : Outcome}
      (ho : o.isOk = true) : (s.set q ((s.get q).tried x o)).In due q (Outbox.Sent x) :=
    hs.set ⟨hs.here.sound.tried hs.here.head,hs.here.sends hdue ho⟩
  refine sat_op (pushable_trying x r r _) hs fun s ch hs => ?_
  by_cases hwrap : ch = .fault
  · simp only [FlushOp.exec,if_pos hwrap]
    exact .inr ⟨rfl,hfails hs⟩
  simp only [FlushOp.exec,if_neg hwrap]
  refine sat_op (pushable_trying x r r _) hs fun s ch hs => ?_
  by_cases hclient : ch = .fault
  · simp only [FlushOp.exec,if_pos hclient]
    exact .inl ⟨rfl,hsends hs rfl⟩
  simp only [FlushOp.exec,if_neg hclient]
  refine sat_op (pushable_trying x r r _) hs fun s ch hs => ?_
  cases ch with
  | ok | refused => exact .inl ⟨rfl,hsends hs rfl⟩
  | fault => exact .inr ⟨rfl,hfails hs⟩

def Outbox.Tried (b : Outbox) : Prop := b.Resting 0 ∨ ∃ x, b.Trying x 4 4 0

theorem attemptHead_sat {x : Letter} {r : Nat} (hr : r ≤ 3) (hdue : due q ≤ 1)
    (hs : s.In due q (Outbox.Trying x r r (due q))) :
    messageQueues.Sat .none queueContract () (attemptHead q x)
      (fun out s => out = .ok () ∧ s.In due q Outbox.Tried) s := by
  have hrest (s : MessageQueues) (h : s.In due q (Outbox.Resting 0)) : s.In due q Outbox.Tried :=
    ⟨h.runs,.inl h.here,h.others⟩
  refine sat_op (pushable_trying x r r _) hs fun s ch hs => ?_
  by_cases hjson : ch = .fault
  · simp only [FlushOp.exec,if_pos hjson]
    exact ⟨rfl,hrest _ (hs.set ((hs.here.unserialized hdue).resting hr))⟩
  simp only [FlushOp.exec,if_neg hjson,Prog.ret_bind,if_true]
  refine System.Sat.bind ((sendDm_sat hdue hs).mono ?_)
  rintro _ s (⟨rfl,hs⟩ | ⟨rfl,hs⟩)
  · refine sat_op (pushable_sent x) hs fun s ch hs => ?_
    exact remove_sat (hs.set hs.here.leaving) fun s hs => ⟨rfl,hrest s hs⟩
  · refine sat_op (pushable_trying x _ r 0) hs fun s ch hs => ?_
    have hin : (s.set q { s.get q with retries := (s.get q).retries + 1 }).In due q
        (Outbox.Trying x (r + 1) (r + 1) 0) := hs.set hs.here.countRetry
    refine ⟨rfl,hin.runs,?_,hin.others⟩
    by_cases hlast : r = 3
    · subst hlast
      exact .inr ⟨x,hin.here⟩
    · exact .inl (hin.here.resting (by omega))

theorem pushable_tried : Pushable Outbox.Tried where
  enqueue b m d h := by
    obtain h | ⟨x,h⟩ := h
    · exact .inl (h.enqueue m d)
    · exact .inr ⟨x,h.enqueue m d⟩
  sound b h := by
    obtain h | ⟨x,h⟩ := h
    · exact h.sound
    · exact h.sound

theorem dropAfterRetries_sat (hs : s.In due q Outbox.Tried) :
    messageQueues.Sat .none queueContract () (dropAfterRetries q)
      (fun out s => out = .ok () ∧ s.In due q (Outbox.Resting 0)) s := by
  refine sat_op pushable_tried hs fun s ch hs => ?_
  simp only [FlushOp.exec,Prog.ret_bind]
  obtain h | ⟨x,h⟩ := hs.here
  · have hfew : ¬ 3 < (s.get q).retries := Nat.not_lt.mpr h.retries
    rw [if_neg hfew]
    exact ⟨rfl,hs.runs,h,hs.others⟩
  · have hfour : 3 < (s.get q).retries := by rw [h.retries]; decide
    rw [if_pos hfour]
    have hin : s.In due q (Outbox.Trying x 4 4 0) := ⟨hs.runs,h,hs.others⟩
    refine sat_op (pushable_trying x 4 4 0) hin fun s ch hs => ?_
    exact remove_sat (hs.set hs.here.gaveUp) fun s hs => ⟨rfl,hs⟩

theorem sendMessages_sat (hdue : due q ≤ 1) (hs : s.Rests due) :
    messageQueues.Sat .none queueContract () (sendMessages q)
      (fun out s => out = .ok () ∧ s.Rests (Function.update due q 0)) s := by
  refine sat_op (pushable_resting _) (hs.at q) fun s ch hs => ?_
  simp only [FlushOp.exec,Prog.ret_bind]
  cases hq : (s.get q).queue with
  | nil =>
    have hin : s.In due q (Outbox.Resting 0) := ⟨hs.runs,hs.here.of_empty hq,hs.others⟩
    exact ⟨rfl,hin.rests⟩
  | cons x rest =>
    -- the head found later is the one seen now, since pushing does not change it
    have hhead : s.In due q fun b => b.Resting (due q) ∧ b.queue.head? = some x :=
      ⟨hs.runs,⟨hs.here,by rw [hq]; rfl⟩,hs.others⟩
    refine sat_op ⟨fun b m d hb => ⟨hb.1.enqueue m d,by simp [Outbox.enqueue,hb.2]⟩,
      fun _ hb => hb.1.sound⟩ hhead fun s ch hs => ?_
    have hin : s.In due q (Outbox.Trying x (s.get q).retries (s.get q).retries (due q)) :=
      ⟨hs.runs,hs.here.1.trying x hs.here.2,hs.others⟩
    simp only [FlushOp.exec,Prog.bind_eq,Prog.ret_bind,hs.here.2]
    refine System.Sat.bind ((attemptHead_sat hs.here.1.retries hdue hin).mono ?_)
    rintro _ s ⟨rfl,hs⟩
    refine (dropAfterRetries_sat hs).mono ?_
    rintro _ s ⟨rfl,hs⟩
    exact ⟨rfl,hs.rests⟩

theorem jobFlushMessagesQueue_sat (hs : s.Rests fun _ => 1) :
    messageQueues.Sat .none queueContract () jobFlushMessagesQueue
      (fun _ s => s.Rests fun _ => 0) s := by
  refine System.Sat.bind ((sendMessages_sat le_rfl hs).mono ?_)
  rintro _ s ⟨rfl,hs⟩
  refine System.Sat.bind ((sendMessages_sat (by simp) hs).mono ?_)
  rintro _ s ⟨rfl,hs⟩
  refine (sendMessages_sat (by simp) hs).mono fun _ s h => ⟨h.2.runs,fun q => ?_⟩
  have hq := h.2.resting q
  cases q <;> simpa using hq

end

def Starts (s : MessageQueues) : Prop := s = {}

theorem resting_empty : ({} : Outbox).Resting 0 where
  sound := ⟨rfl,rfl,by simp,.nil,by simp,by simp,by simp,fun _ => Nat.zero_le _⟩
  retries := Nat.zero_le _
  fresh := fun _ => rfl
  trying := by simp

theorem rests_empty : ({} : MessageQueues).Rests fun _ => 0 :=
  ⟨rfl,fun q => by cases q <;> exact resting_empty⟩

theorem rests_launched {s s' : MessageQueues} (h : s.Rests fun _ => 0)
    (hl : messageQueues.launch () s = some s') : s'.Rests fun _ => 1 := by
  simp only [messageQueues,h.runs,Bool.false_eq_true,if_false,Option.some.injEq] at hl
  subst hl
  refine ⟨h.runs,fun q => ?_⟩
  rw [get_noteHeads]
  exact (h.resting q).noteHead

theorem grown_push (s : MessageQueues) (e : Push) :
    s.Grown (s.set e.queue ((s.get e.queue).enqueue e.message e.destination)) := by
  refine ⟨by simp,fun q => ?_⟩
  by_cases hq : q = e.queue
  · exact ⟨[(e.message,e.destination)],by simp [hq]⟩
  · exact ⟨[],by simp [hq]⟩

theorem queueContract_keeps : messageQueues.Keeps .none queueContract Starts where
  rely_refl _ _ := ⟨rfl,fun _ => ⟨[],rfl⟩⟩
  rely_trans _ s₁ s₂ s₃ h h' := by
    refine ⟨h'.panicked.trans h.panicked,fun q => ?_⟩
    obtain ⟨pushes,heq⟩ := h.pushed q
    obtain ⟨pushes',heq'⟩ := h'.pushed q
    exact ⟨pushes ++ pushes',by rw [heq',heq,List.foldl_append]⟩
  distinct _ := rfl
  init := by
    rintro _ rfl l _
    exact rests_empty
  start := by
    intro l s s' hl l' hne
    exact absurd rfl hne
  code := by
    intro l s s' _ hidle hl
    exact jobFlushMessagesQueue_sat (rests_launched hidle hl)
  other := by
    intro l l' op ch ls s hco
    cases hco
  idle := by
    intro l l' op ch ls s hne
    exact absurd rfl hne
  env := by
    intro e ls s s' _ he
    cases he
    exact ⟨fun _ l _ => ⟨fun _ => grown_push s e,fun hidle => hidle.grown (grown_push s e)⟩,
      fun hkill => by cases hkill⟩

section

variable {c : Config MessageQueues Unit FlushOp FlushOp.Res MostroError}
  {D : System.Demand MessageQueues Unit FlushOp FlushChoice Push}

theorem rests_reach (h : messageQueues.Reach .none Starts c) (hidle : c.tasks = []) :
    c.shared.Rests fun _ => 0 :=
  (queueContract_keeps.holds (fun _ _ _ _ _ => trivial) h).idle () trivial (by simp [hidle])

theorem sound_reach (h : messageQueues.Reach .none Starts c) : c.shared.Sound := by
  have hholds := queueContract_keeps.holds (fun _ _ _ _ _ => trivial) h
  cases htasks : c.tasks with
  | nil => exact (rests_reach h htasks).sound
  | cons t rest =>
    obtain ⟨s,hr,hsat⟩ := hholds.sat t (by simp [htasks]) trivial
    obtain ⟨l,code⟩ := t
    cases code with
    | call op k => exact (hsat c.shared [] hr trivial).1
    | ret _ | fail _ =>
      have hrests : s.Rests fun _ => 0 := hsat
      exact (hrests.grown hr).sound

def FlushOp.outcome (ch : FlushChoice) : FlushOp → Option Outcome
  | .asJson _ _ => if ch = .fault then some .unserialized else none
  | .wrapMessage _ _ => if ch = .fault then some .failed else none
  | .getNostrClient _ _ => if ch = .fault then some .unsent else none
  | .sendEvent _ _ => match ch with
    | .ok => some .sent
    | .fault => some .failed
    | .refused => some .unsent
  | _ => none

abbrev never (o : Outcome) : System.Demand MessageQueues Unit FlushOp FlushChoice Push :=
  .check (fun _ op ch _ _ => op.outcome ch != some o) fun _ _ _ => true

theorem mem_attempts_set {s : MessageQueues} {q q' : QueueName} {b : Outbox}
    {a : Letter × Outcome} (h : a ∈ ((s.set q b).get q').attempts)
    (hb : a ∈ b.attempts → a ∈ (s.get q).attempts) : a ∈ (s.get q').attempts := by
  rw [get_set] at h
  split_ifs at h with hq
  · exact hq ▸ hb h
  · exact h

theorem mem_attempts_tried {s : MessageQueues} {q q' : QueueName} {x : Letter} {o : Outcome}
    {a : Letter × Outcome} (h : a ∈ ((s.set q ((s.get q).tried x o)).get q').attempts)
    (hne : o ≠ a.2) : a ∈ (s.get q').attempts := by
  refine mem_attempts_set h fun ha => (List.mem_cons.mp ha).resolve_left ?_
  rintro rfl
  exact hne rfl

theorem exec_attempts {op : FlushOp} {ch : FlushChoice} {s : MessageQueues} {q : QueueName}
    {a : Letter × Outcome} (h : a ∈ ((op.exec ch s).1.get q).attempts)
    (hne : op.outcome ch ≠ some a.2) : a ∈ (s.get q).attempts := by
  cases op with
  | asJson | wrapMessage | getNostrClient =>
    simp only [FlushOp.outcome] at hne
    simp only [FlushOp.exec] at h
    split_ifs at h hne
    · exact mem_attempts_tried h fun heq => hne (congrArg some heq)
    · exact h
  | sendEvent => cases ch <;> exact mem_attempts_tried h fun heq => hne (congrArg some heq)
  | countRetry | resetRetries | remove => exact mem_attempts_set h id
  | isEmpty | first | retries => exact h
  | panic => cases q <;> exact h

theorem never_reach {o : Outcome} (h : messageQueues.Reach (never o) Starts c) (q : QueueName)
    (x : Letter) : (x,o) ∉ (c.shared.get q).attempts := by
  refine (h.together (I := fun s => ∀ q, (x,o) ∉ (s.get q).attempts)
    (P := fun _ _ => True) ?_ ?_ ?_ ?_).1 q
  · rintro _ rfl q
    cases q <;> exact List.not_mem_nil
  · intro l s s' hl hs
    refine ⟨fun q => ?_,trivial,fun _ _ => trivial⟩
    simp only [messageQueues] at hl
    split at hl
    · cases hl
    · cases hl
      rw [get_noteHeads]
      exact hs q
  · intro c _ l op ch _ hd hs _
    refine ⟨fun q hmem => hs q (exec_attempts hmem ?_),fun _ _ => trivial⟩
    simpa [System.Demand.check] using hd
  · intro e ls s s' _ he hs
    cases he
    exact ⟨fun q hmem => hs q (mem_attempts_set hmem id),fun _ _ => trivial⟩

end

/-- In every run a queue gives up its messages in the order in which they were pushed, tries none
before its turn, and removes one only after `send_dm` succeeded for it or failed four times.  The
job does not panic, and each of its rounds tries the head it finds.  Where a success of `send_dm`
means that a relay took the message, a message that is removed was sent or has failed four times;
where every message can be serialized, no message is at the head at the start of more than four
rounds. -/
theorem queues_in_order (c : Config MessageQueues Unit FlushOp FlushOp.Res MostroError)
    (h : messageQueues.Reach .none Starts c) (q : QueueName) :
    (c.shared.get q).enqueued = (c.shared.get q).removed ++ (c.shared.get q).queue ∧
      (c.shared.get q).enqueued.map (·.serial) = List.range (c.shared.get q).enqueued.length ∧
      ((c.shared.get q).attempts.Pairwise fun later earlier =>
        earlier.1.serial ≤ later.1.serial) ∧
      (∀ x ∈ (c.shared.get q).removed, Left x (c.shared.get q).attempts) ∧
      c.shared.panicked = false ∧
      (c.tasks = [] → ∀ x, (c.shared.get q).found.count x ≤ (c.shared.get q).tries x) ∧
      (messageQueues.Reach (never .unsent) Starts c → ∀ x ∈ (c.shared.get q).removed,
        (((c.shared.get q).attempts.filter (·.1 = x)).map (·.2)).head? = some .sent ∨
          (c.shared.get q).attempts.count (x,.failed) = 4) ∧
      (messageQueues.Reach (never .unserialized) Starts c →
        ∀ x, (c.shared.get q).found.count x ≤ 4) := by
  obtain ⟨hruns,hs⟩ := sound_reach h
  have hsound := hs q
  refine ⟨hsound.split,hsound.serials,hsound.ordered,hsound.left,hruns,fun hidle x => ?_,
    fun hc x hx => ?_,fun hc x => ?_⟩
  · have hrests := (rests_reach h hidle).resting q
    by_cases hx : x ∈ (c.shared.get q).removed
    · exact hsound.served x hx
    by_cases hhead : (c.shared.get q).queue.head? = some x
    · exact (hrests.trying x hhead).found
    · exact (unseen_of_ne hx hhead hsound).2.trans_le (Nat.zero_le _)
  · refine (hsound.left x hx).imp ?_ And.left
    rintro ⟨o,ho,hlast⟩
    have hmem : (x,o) ∈ (c.shared.get q).attempts := by
      obtain ⟨a,ha,rfl⟩ := List.mem_map.mp (List.mem_of_head? hlast)
      obtain ⟨ha,heq⟩ := List.mem_filter.mp ha
      rwa [← of_decide_eq_true heq]
    cases o with
    | sent => exact hlast
    | unsent => exact absurd hmem (never_reach hc q x)
    | failed | unserialized => cases ho
  · have hlooks := hsound.looks x
    rwa [List.count_eq_zero.mpr (never_reach hc q x)] at hlooks

def failedRound : List (Event Unit FlushChoice Push) :=
  .start () :: [.ok,.ok,.ok,.ok,.ok,.fault,.ok,.ok,.ok,.ok].map (.step 0)

def fourFailures : List (Event Unit FlushChoice Push) :=
  .env ⟨.orderMsg,"rate","key"⟩ :: failedRound ++ failedRound ++ failedRound ++ failedRound ++
    [.step 0 .ok,.step 0 .ok]

theorem queues_in_order_dropped :
    ∃ c, messageQueues.Reach .none Starts c ∧ (c.shared.get .orderMsg).removed.length = 1 ∧
      (∀ x ∈ (c.shared.get .orderMsg).removed, Left x (c.shared.get .orderMsg).attempts) ∧
      c.tasks = [] ∧
      ∀ x, (c.shared.get .orderMsg).found.count x ≤ (c.shared.get .orderMsg).tries x := by
  have hrun : ∃ c, messageQueues.Reach .none Starts c ∧
      (c.shared.get .orderMsg).removed.length = 1 ∧ c.tasks.length = 0 :=
    System.exists_reach_of_play fourFailures rfl (by decide +kernel)
  obtain ⟨c,hc,hremoved,hidle⟩ := hrun
  have htasks := List.length_eq_zero_iff.mp hidle
  obtain ⟨-,-,-,hleft,-,htried,-,-⟩ := queues_in_order c hc .orderMsg
  exact ⟨c,hc,hremoved,hleft,htasks,htried htasks⟩

def stuckLetter : Letter := ⟨0,"rate","key"⟩

def stuck (looks : Nat) : MessageQueues where
  queueOrderMsg :=
    { queue := [stuckLetter], enqueued := [stuckLetter]
      attempts := List.replicate looks (stuckLetter,.unserialized)
      found := List.replicate looks stuckLetter }

theorem stuck_reach (looks : Nat) : messageQueues.Reach .none Starts ⟨stuck looks,[]⟩ := by
  induction looks with
  | zero =>
    have hpush : messageQueues.play .none ⟨{},[]⟩ [.env ⟨.orderMsg,"rate","key"⟩] =
        some ⟨stuck 0,[]⟩ := rfl
    have hstart : Starts {} := rfl
    exact (System.Reach.init hstart).run (System.run_of_play hpush)
  | succ looks ih =>
    have hround : messageQueues.play .none ⟨stuck looks,[]⟩
        (.start () :: [.ok,.ok,.fault,.ok,.ok,.ok].map (.step 0)) =
          some ⟨stuck (looks + 1),[]⟩ := rfl
    exact ih.run (System.run_of_play hround)

/-- A message that cannot be serialized stays at the head however often the job comes by, and one
for which there is no client is removed unsent. -/
theorem queues_stall_and_drop :
    (¬ ∃ bound, ∀ c, messageQueues.Reach .none Starts c → ∀ x,
      (c.shared.get .orderMsg).found.count x ≤ bound) ∧
    ∃ c, messageQueues.Reach .none Starts c ∧ ∃ x ∈ (c.shared.get .orderMsg).removed,
      (c.shared.get .orderMsg).attempts = [(x,.unsent)] := by
  constructor
  · rintro ⟨bound,h⟩
    have hle := h _ (stuck_reach (bound + 1)) stuckLetter
    have hcount : ((stuck (bound + 1)).get .orderMsg).found.count stuckLetter = bound + 1 :=
      List.count_replicate_self
    change ((stuck (bound + 1)).get .orderMsg).found.count stuckLetter ≤ bound at hle
    omega
  · exact System.exists_reach_of_play (.env ⟨.orderMsg,"rate","key"⟩ :: .start () ::
      [.ok,.ok,.ok,.ok,.fault,.ok,.ok].map (.step 0)) rfl (by decide +kernel)

end Mostro.Outgoing
