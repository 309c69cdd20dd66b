import Mostro.OrderbookQueue
import Mostro.RelyGuarantee

set_option autoImplicit false

/-!
What a publisher of order revisions goes by between two of its operations, and where it performs
each of them: a handler owes at most the failure it is about to record, and the reconciler works
down the batch it drained.
-/

namespace Mostro.Orderbook

open Interleaving

variable {id' : Uuid} {s s' : Book} {op : BookOp} {order : Order}
variable {e : FailedPublish} {ch : BookChoice} {ls : List Publisher} {n : Nat} {entry : Drained}

section

variable {q : FailedPublishes} {id : Uuid} {g : Nat}

theorem lookup_mark (q : FailedPublishes) (id : Uuid) (g : Nat) :
    ∃ e, (markOrderbookPublishFailedAt q id g).lookup id = some e ∧ g ≤ e.generation ∧
      (q.lookup id = none → e.attempts ≤ 1) ∧
      ∀ old, q.lookup id = some old →
        old.generation ≤ e.generation ∧ e.attempts ≤ old.attempts + 1 := by
  refine ⟨_,AList.lookup_insert _,le_max_right _ _,fun hnone => ?_,fun old hold => ?_⟩
  · simp [hnone,saturatingSucc]
  · simp only [hold,Option.getD_some]
    exact ⟨le_max_left _ _,min_le_left _ _⟩

theorem lookup_mark_ne (h : id' ≠ id) :
    (markOrderbookPublishFailedAt q id g).lookup id' = q.lookup id' := AList.lookup_insert_ne h

theorem lookup_requeue (q : FailedPublishes) (id : Uuid) (g a : Nat) :
    ∃ e, (requeueOrderbookPublishFailure q id g a).lookup id = some e ∧ g ≤ e.generation ∧
      (q.lookup id = none → e.attempts = a) ∧
      ∀ old, q.lookup id = some old →
        old.generation ≤ e.generation ∧ e.attempts = max old.attempts a := by
  refine ⟨_,AList.lookup_insert _,le_max_right _ _,fun hnone => ?_,fun old hold => ?_⟩
  · simp [hnone]
  · simp only [hold,Option.getD_some]
    exact ⟨le_max_left _ _,trivial⟩

theorem lookup_requeue_ne {a : Nat} (h : id' ≠ id) :
    (requeueOrderbookPublishFailure q id g a).lookup id' = q.lookup id' := AList.lookup_insert_ne h

theorem lookup_clear (id : Uuid) (g : Nat) (h : q.lookup id' = some e) :
    (clearOrderbookPublishFailureUpTo q id g).lookup id' = some e ∨
      id' = id ∧ e.generation ≤ g := by
  by_cases hid : id' = id
  · subst hid
    simp only [clearOrderbookPublishFailureUpTo,h]
    split
    next hle => exact .inr ⟨trivial,hle⟩
    next => exact .inl h
  · refine .inl ?_
    unfold clearOrderbookPublishFailureUpTo
    split
    · split
      · rw [AList.lookup_erase_ne hid,h]
      · exact h
    · exact h

theorem lookup_of_clear (h : (clearOrderbookPublishFailureUpTo q id g).lookup id' = some e) :
    q.lookup id' = some e := by
  unfold clearOrderbookPublishFailureUpTo at h
  split at h
  · split at h
    · by_cases hid : id' = id
      · rw [hid,AList.lookup_erase] at h
        cases h
      · rwa [AList.lookup_erase_ne hid] at h
    · exact h
  · exact h

theorem mem_takeFailed {e : Drained} :
    e ∈ takeFailedOrderbookPublishes q ↔ q.lookup e.1 = some ⟨e.2.1,e.2.2⟩ := by
  rw [← Option.mem_def,AList.mem_lookup_iff]
  obtain ⟨id,g,a⟩ := e
  simp only [takeFailedOrderbookPublishes,List.mem_map,Prod.mk.injEq]
  constructor
  · rintro ⟨⟨i,f⟩,hmem,rfl,rfl,rfl⟩
    exact hmem
  · intro h
    exact ⟨_,h,rfl,rfl,rfl⟩

end

def awaitsRetry (id : Uuid) : List Happening → Bool
  | [] => false
  | .recorded l i _ :: h => i == id && l != .reconciler || awaitsRetry id h
  | .retried i :: h => i != id && awaitsRetry id h
  | .accepted _ _ :: h | .refused _ _ _ :: h | .gaveUp _ :: h | .vanished _ :: h => awaitsRetry id h

def owes (l : Publisher) : List Happening → Option (Uuid × Nat)
  | [] => none
  | .refused l' id g :: h => if l' = l then some (id,g) else owes l h
  | .recorded l' _ _ :: h => if l' = l then none else owes l h
  | .accepted _ _ :: h | .retried _ :: h | .gaveUp _ :: h | .vanished _ :: h => owes l h

theorem awaitsRetry_of_recorded {l : Publisher} {id : Uuid} {g : Nat}
    {later earlier : List Happening} (hl : l ≠ .reconciler) (h : .retried id ∉ later) :
    awaitsRetry id (later ++ .recorded l id g :: earlier) = true := by
  induction later with
  | nil => simp [awaitsRetry,hl]
  | cons x later ih =>
    obtain ⟨hx,hlater⟩ := not_or.mp (List.mem_cons.not.mp h)
    have ih := ih hlater
    cases x with
    | retried i =>
      have hi : i ≠ id := fun hi => hx (hi ▸ rfl)
      simpa [awaitsRetry,hi] using ih
    | recorded _ _ _ => simp [awaitsRetry,ih]
    | _ => simpa [awaitsRetry] using ih

def retrying (id : Uuid) : List Happening → Bool
  | [] => false
  | .retried i :: _ => i == id
  | .recorded l _ _ :: h => l != .reconciler && retrying id h
  | .gaveUp _ :: _ | .vanished _ :: _ => false
  | .accepted _ _ :: h | .refused _ _ _ :: h => retrying id h

/-- The order is being retried, and its entry, if any, has attempts left for one more failure of the
reconciler. -/
def Book.Calm (s : Book) (id : Uuid) : Prop :=
  retrying id s.history = true ∧ (awaitsRetry id s.history = true →
    ∀ e, s.queue.lookup id = some e → e.attempts + 1 < maxOrderbookRepublishAttempts)

/-- A handler records a failure only where the order's entry, if any, has an attempt left after it,
and one more while a retry of the order is in flight. -/
abbrev attemptsLeft : System.Demand Book Publisher BookOp BookChoice BookMove :=
  .check (fun l op _ ls s => match op with
    | .markFailedAt id _ => l == .reconciler || (s.queue.lookup id).all fun e =>
        e.attempts + 1 < maxOrderbookRepublishAttempts &&
          (!ls.contains .reconciler || !retrying id s.history ||
            e.attempts + 2 < maxOrderbookRepublishAttempts)
    | _ => true) fun _ _ _ => true

def BookOp.reconciles : BookOp → Bool
  | .tryStampOrderbookEventQuiescent _ _ | .takeFailed | .giveUp _ | .orderById _ | .requeue _ =>
    true
  | _ => false

structure Book.Apart (l : Publisher) (s s' : Book) : Prop where
  history : ∀ h ∈ s.history, h ∈ s'.history
  owes : owes l s'.history = owes l s.history
  generation : s.registry.generation ≤ s'.registry.generation
  batch : l = .reconciler → s'.batch = s.batch

structure Book.Since (l : Publisher) (s s' : Book) : Prop extends s.Apart l s' where
  calm : l = .reconciler → ∀ id, s.Calm id → s'.Calm id

/-- The publisher owes nothing; the reconciler has the entries `b` of its batch left. -/
def Book.At (l : Publisher) (b : List Drained) (s : Book) : Prop :=
  owes l s.history = none ∧ (l = .reconciler → s.batch = b)

theorem Book.At.apart {l : Publisher} {b : List Drained} (h : s.At l b) (hs : s.Apart l s') :
    s'.At l b :=
  ⟨hs.owes.trans h.1,fun hl => (hs.batch hl).trans (h.2 hl)⟩

theorem Book.At.since {l : Publisher} {b : List Drained} (h : s.At l b) (hs : s.Since l s') :
    s'.At l b := h.apart hs.toApart

def BookOp.Pre (l : Publisher) (op : BookOp) (s : Book) : Prop :=
  match op with
  | .markFailedAt id g => (l = .reconciler → s.Calm id) ∧
      ∀ id' g', owes l s.history = some (id',g') → id' = id ∧ g' ≤ g
  | .nextGeneration => True
  | .clearUpTo id g => owes l s.history = none ∧ .accepted id g ∈ s.history
  | .takeFailed => s.At l []
  | .giveUp e => maxOrderbookRepublishAttempts ≤ e.2.2 ∧ ∃ b, s.At l (e :: b)
  | .orderById id => ∃ e b, e.1 = id ∧ s.At l (e :: b)
  | .requeue e => e.2.2 < maxOrderbookRepublishAttempts ∧ ∃ b, s.At l (e :: b)
  | _ => owes l s.history = none

def bookContract : Contract Book Publisher BookOp where
  Binds _ := True
  Rely := fun l s s' => s.Since l s'
  Known := fun l op _ _ => op.reconciles = true → l = .reconciler
  Pre := BookOp.Pre
  Idle := fun l s => s.At l []

theorem apart_refl (l : Publisher) (s : Book) : s.Apart l s :=
  ⟨fun _ h => h,rfl,le_rfl,fun _ => rfl⟩

theorem since_refl (l : Publisher) (s : Book) : s.Since l s := ⟨apart_refl l s,fun _ _ h => h⟩

theorem since_trans {l : Publisher} {s₁ s₂ s₃ : Book} (h : s₁.Since l s₂) (h' : s₂.Since l s₃) :
    s₁.Since l s₃ where
  history := fun x hx => h'.history x (h.history x hx)
  owes := h'.owes.trans h.owes
  generation := h.generation.trans h'.generation
  batch := fun hl => (h'.batch hl).trans (h.batch hl)
  calm := fun hl id hc => h'.calm hl id (h.calm hl id hc)

theorem apart_of_same {l : Publisher} (hb : s'.batch = s.batch) (hh : s'.history = s.history)
    (hg : s.registry.generation ≤ s'.registry.generation) : s.Apart l s' :=
  ⟨fun _ hx => hh ▸ hx,by rw [hh],hg,fun _ => hb⟩

theorem apart_log {l : Publisher} {h : Happening} (ho : owes l (h :: s.history) = owes l s.history) :
    s.Apart l (s.log h) :=
  ⟨fun _ hx => List.mem_cons_of_mem _ hx,ho,le_rfl,fun _ => rfl⟩

theorem tryStamp_generation {r : OrderbookRegistry} {id : Uuid} {t q : Nat}
    {out : OrderbookRegistry × OrderbookStamp}
    (h : tryStampOrderbookEventQuiescent r id t q = some out) :
    r.generation ≤ out.1.generation := by
  unfold tryStampOrderbookEventQuiescent at h
  split at h
  · cases h
  · cases h
    exact Nat.le_succ _

theorem attemptsLeft_mark {l : Publisher} {id : Uuid} {g : Nat} (hl : l ≠ .reconciler)
    (hd : attemptsLeft.onOp l (.markFailedAt id g) ch ls s) (he : s.queue.lookup id = some e) :
    e.attempts + 1 < maxOrderbookRepublishAttempts ∧ (.reconciler ∈ ls →
      retrying id s.history = true → e.attempts + 2 < maxOrderbookRepublishAttempts) := by
  simp only [System.Demand.check,he,Option.all_some,Bool.or_eq_true,Bool.and_eq_true,beq_iff_eq,hl,
    false_or,decide_eq_true_eq,Bool.not_eq_true',List.contains_eq_mem,decide_eq_false_iff_not] at hd
  refine ⟨hd.1,fun hrun hretry => ?_⟩
  rcases hd.2 with (hno | hno) | hlt
  · exact absurd hrun hno
  · cases hno.symm.trans hretry
  · exact hlt

theorem calm_mark {l : Publisher} {id : Uuid} {g : Nat} (hl : l ≠ .reconciler)
    (hleft : ∀ e, s.queue.lookup id = some e → retrying id s.history = true →
      e.attempts + 2 < maxOrderbookRepublishAttempts) (h : s.Calm id') :
    Book.Calm { s.log (.recorded l id g) with
      queue := markOrderbookPublishFailedAt s.queue id g } id' := by
  refine ⟨by simpa [Book.log,retrying,hl] using h.1,fun hwait e he => ?_⟩
  by_cases hid : id' = id
  · subst hid
    obtain ⟨e',he',_,hnew,hold⟩ := lookup_mark s.queue id' g
    obtain rfl : e = e' := Option.some.inj (he.symm.trans he')
    cases hq : s.queue.lookup id' with
    | none =>
      have := hnew hq
      simp only [maxOrderbookRepublishAttempts]
      omega
    | some old =>
      have hle := (hold old hq).2
      have := hleft old hq h.1
      omega
  · have hne : (id == id') = false := by simpa using fun h => hid h.symm
    refine h.2 ?_ e ((lookup_mark_ne hid).symm.trans he)
    simpa [Book.log,awaitsRetry,hne] using hwait

theorem apart_other {l l' : Publisher} (op : BookOp) (ch : BookChoice) (s : Book) (hne : l ≠ l')
    (hk : op.reconciles = true → l = .reconciler) : s.Apart l' (op.exec l ch s).1 := by
  have hother (h : op.reconciles = true) : l' ≠ .reconciler := fun hl' =>
    hne ((hk h).trans hl'.symm)
  cases op with
  | orderToTags order =>
    simp only [BookOp.exec]
    split_ifs
    · exact apart_log rfl
    · exact apart_refl _ _
    · exact apart_refl _ _
  | stampOrderbookEvent id t => exact apart_of_same rfl rfl (Nat.le_succ _)
  | tryStampOrderbookEventQuiescent id q =>
    simp only [BookOp.exec]
    split
    next out hout =>
      exact ⟨fun x hx => List.mem_cons_of_mem _ hx,rfl,tryStamp_generation hout,fun _ => rfl⟩
    next => exact apart_refl _ _
  | newOrderEvent => exact apart_refl _ _
  | updateOrder order =>
    simp only [BookOp.exec]
    split_ifs
    · exact apart_refl _ _
    · exact apart_of_same rfl rfl le_rfl
  | sendEvent id g =>
    simp only [BookOp.exec]
    split_ifs
    · exact apart_log rfl
    · exact apart_log (by simp [owes,hne])
  | nextGeneration => exact apart_of_same rfl rfl (Nat.le_succ _)
  | markFailedAt id g =>
    exact ⟨fun x hx => List.mem_cons_of_mem _ hx,by simp [BookOp.exec,Book.log,owes,hne],le_rfl,
      fun _ => rfl⟩
  | clearUpTo id g => exact apart_of_same rfl rfl le_rfl
  | takeFailed => exact ⟨fun x hx => hx,rfl,le_rfl,fun h => absurd h (hother rfl)⟩
  | giveUp e =>
    exact ⟨fun x hx => List.mem_cons_of_mem _ hx,rfl,le_rfl,fun h => absurd h (hother rfl)⟩
  | orderById id =>
    simp only [BookOp.exec]
    split_ifs
    · exact apart_refl _ _
    · split
      · exact apart_refl _ _
      · exact ⟨fun x hx => List.mem_cons_of_mem _ hx,rfl,le_rfl,fun h => absurd h (hother rfl)⟩
  | requeue e => exact ⟨fun x hx => hx,rfl,le_rfl,fun h => absurd h (hother rfl)⟩

theorem calm_other {l : Publisher} (hl : l ≠ .reconciler) (hrun : .reconciler ∈ ls)
    (hk : op.reconciles = true → l = .reconciler) (hd : attemptsLeft.onOp l op ch ls s) {id : Uuid}
    (hc : s.Calm id) : (op.exec l ch s).1.Calm id := by
  cases op with
  | orderToTags order =>
    simp only [BookOp.exec,if_neg hl]
    split_ifs <;> exact hc
  | updateOrder order =>
    simp only [BookOp.exec]
    split_ifs <;> exact hc
  | sendEvent id' g =>
    simp only [BookOp.exec]
    split_ifs <;> exact hc
  | markFailedAt id' g =>
    exact calm_mark hl (fun e he => (attemptsLeft_mark hl hd he).2 hrun) hc
  | clearUpTo id' g => exact ⟨hc.1,fun hwait e he => hc.2 hwait e (lookup_of_clear he)⟩
  | stampOrderbookEvent id' t => exact hc
  | newOrderEvent => exact hc
  | nextGeneration => exact hc
  | _ => exact absurd (hk rfl) hl

theorem since_other {l l' : Publisher} (hne : l ≠ l') (hl : l' ∈ ls)
    (hk : op.reconciles = true → l = .reconciler) (hd : attemptsLeft.onOp l op ch ls s) :
    s.Since l' (op.exec l ch s).1 where
  toApart := apart_other op ch s hne hk
  calm hl' _ hc := calm_other (fun h => hne (h.trans hl'.symm)) (hl' ▸ hl) hk hd hc

section

variable {l : Publisher} {b : List Drained} {α : Type}

def Book.Owing (l : Publisher) (b : List Drained) (id : Uuid) (g : Nat) (s : Book) : Prop :=
  (∀ id' g', owes l s.history = some (id',g') → id' = id ∧ g' ≤ g) ∧
    (l = .reconciler → s.batch = b ∧ s.Calm id)

theorem Book.Owing.since {id : Uuid} {g : Nat} (h : s.Owing l b id g) (hs : s.Since l s') :
    s'.Owing l b id g :=
  ⟨fun id' g' ho => h.1 id' g' (hs.owes ▸ ho),
    fun hl => ⟨(hs.batch hl).trans (h.2 hl).1,hs.calm hl id (h.2 hl).2⟩⟩

theorem Book.At.owing {id : Uuid} {g : Nat} (h : s.At l b) (hc : l = .reconciler → s.Calm id) :
    s.Owing l b id g :=
  ⟨fun id' g' ho => by simp [h.1] at ho,fun hl => ⟨h.2 hl,hc hl⟩⟩

abbrev BookSat (l : Publisher) {α : Type} (p : BookM α) (Q : Except MostroError α → Book → Prop)
    (s : Book) : Prop := orderbook.Sat attemptsLeft bookContract l p Q s

theorem sat_op {k : op.Res → BookM α} {Q : Except MostroError α → Book → Prop} {T : Book → Prop}
    (hs : T s) (hT : ∀ s s', T s → s.Since l s' → T s')
    (h : ∀ s, T s → op.Pre l s ∧ ∀ ch, BookSat l (k (op.exec l ch s).2) Q (op.exec l ch s).1) :
    BookSat l (.call op k) Q s := by
  intro s₁ _ hr _
  obtain ⟨hpre,hrest⟩ := h s₁ (hT s s₁ hs hr)
  exact ⟨hpre,fun ch _ => hrest ch⟩

theorem markFailedAt_sat {id : Uuid} {g : Nat} (hs : s.Owing l b id g) :
    BookSat l (markFailedAt id g)
      (fun r s => r = .ok () ∧ s.At l b) s := by
  refine sat_op hs (fun _ _ => Book.Owing.since) fun s hs =>
    ⟨⟨fun hl => (hs.2 hl).2,hs.1⟩,fun _ => ?_⟩
  exact ⟨rfl,by simp [BookOp.exec,Book.log,owes],fun hl => (hs.2 hl).1⟩

theorem sendEvent_sat {id : Uuid} {g : Nat} {k : SendOutput → BookM α}
    {Q : Except MostroError α → Book → Prop} (hs : s.At l b) (hc : l = .reconciler → s.Calm id)
    (hn : n ≤ s.registry.generation)
    (haccepted : ∀ s, s.At l b → .accepted id g ∈ s.history → BookSat l (k .accepted) Q s)
    (hrefused : ∀ s out, s.Owing l b id g → n ≤ s.registry.generation → out ≠ .accepted →
      BookSat l (k out) Q s) : BookSat l ((sendEvent id g).bind k) Q s := by
  refine sat_op (T := fun s => s.At l b ∧ (l = .reconciler → s.Calm id) ∧
    n ≤ s.registry.generation) ⟨hs,hc,hn⟩ (fun _ _ h hr => ⟨h.1.since hr,
      fun hl => hr.calm hl id (h.2.1 hl),h.2.2.trans hr.generation⟩) fun s hs =>
      ⟨hs.1.1,fun ch => ?_⟩
  by_cases hout : ch.sendOutput = .accepted
  · simp only [BookOp.exec,hout,if_true]
    exact haccepted _ ⟨hs.1.1,hs.1.2⟩ List.mem_cons_self
  · simp only [BookOp.exec,hout,if_false]
    refine hrefused _ _ ⟨fun id' g' ho => ?_,fun hl => ⟨hs.1.2 hl,hs.2.1 hl⟩⟩ hs.2.2 hout
    obtain ⟨rfl,rfl⟩ : id = id' ∧ g = g' := by simpa [Book.log,owes] using ho
    exact ⟨rfl,le_rfl⟩

theorem sendStamped_sat {id : Uuid} {g : Nat} (hs : s.At l b) (hc : l = .reconciler → s.Calm id) :
    BookSat l (sendStamped id g)
      (fun r s => r = .ok () ∧ s.At l b) s := by
  refine sendEvent_sat hs hc (Nat.zero_le _) (fun s hs hacc => ?_) fun s out hs _ hout => ?_
  · refine sat_op (T := fun s => s.At l b ∧ .accepted id g ∈ s.history) ⟨hs,hacc⟩
      (fun _ _ h hr => ⟨h.1.since hr,hr.history _ h.2⟩) fun s hs => ⟨⟨hs.1.1,hs.2⟩,fun _ => ?_⟩
    exact ⟨rfl,hs.1⟩
  · cases out with
    | accepted => exact absurd rfl hout
    | _ => exact markFailedAt_sat hs

def Book.Ready (l : Publisher) (b : List Drained) (id : Uuid) (n : Nat) (s : Book) : Prop :=
  s.At l b ∧ (l = .reconciler → s.Calm id) ∧ n ≤ s.registry.generation

theorem Book.Ready.since {id : Uuid} (h : s.Ready l b id n) (hs : s.Since l s') :
    s'.Ready l b id n :=
  ⟨h.1.since hs,fun hl => hs.calm hl id (h.2.1 hl),h.2.2.trans hs.generation⟩

theorem Book.calm_retried (s : Book) (id : Uuid) : (s.log (.retried id)).Calm id := by
  refine ⟨by simp [Book.log,retrying],fun h => ?_⟩
  simp [Book.log,awaitsRetry] at h

theorem newOrderEvent_sat {id : Uuid} {k : Unit → BookM α} {Q : Except MostroError α → Book → Prop}
    (hs : s.Ready l b id n) (hok : ∀ s, s.Ready l b id n → BookSat l (k ()) Q s)
    (herr : ∀ s e, s.Ready l b id n → Q (.error e) s) : BookSat l (newOrderEvent.bind k) Q s := by
  refine sat_op hs (fun _ _ => Book.Ready.since) fun s hs => ⟨hs.1.1,fun ch => ?_⟩
  simp only [BookOp.exec]
  cases ch.faults with
  | true => exact herr s _ hs
  | false => exact hok s hs

theorem orderToTags_sat {k : Bool → BookM α} {Q : Except MostroError α → Book → Prop}
    (hs : s.At l b) (hok : ∀ s tags, s.At l b → BookSat l (k tags) Q s)
    (herr : ∀ s e, s.Ready l b order.id 0 → Q (.error e) s) :
    BookSat l ((orderToTags order).bind k) Q s := by
  refine sat_op hs (fun _ _ => Book.At.since) fun s hs => ⟨hs.1,fun ch => ?_⟩
  simp only [BookOp.exec]
  cases ch.faults with
  | true =>
    simp only [if_true]
    refine herr _ _ ?_
    split_ifs with hl
    · exact ⟨hs,fun _ => s.calm_retried order.id,Nat.zero_le _⟩
    · exact ⟨hs,fun h => absurd h hl,Nat.zero_le _⟩
  | false => exact hok s _ hs

theorem stampOrderbookEvent_sat {id : Uuid} {t : Option Nat} {k : OrderbookStamp → BookM α}
    {Q : Except MostroError α → Book → Prop} (hl : l ≠ .reconciler) (hs : s.At l b)
    (hok : ∀ s st, s.Ready l b id st.generation → BookSat l (k st) Q s) :
    BookSat l ((stampOrderbookEvent id t).bind k) Q s := by
  refine sat_op hs (fun _ _ => Book.At.since) fun s hs => ⟨hs.1,fun ch => ?_⟩
  exact hok _ _ ⟨hs,fun h => absurd h hl,le_rfl⟩

def StampPolicy.Suits (policy : StampPolicy) (l : Publisher) : Prop :=
  match policy with
  | .always _ => l ≠ .reconciler
  | .ifQuiescent _ => l = .reconciler

theorem stamp_sat {policy : StampPolicy} (hp : policy.Suits l) {id : Uuid}
    {k : Option OrderbookStamp → BookM α} {Q : Except MostroError α → Book → Prop} (hs : s.At l b)
    (hnone : ∀ s, s.At l b → BookSat l (k none) Q s)
    (hsome : ∀ s st, s.Ready l b id 0 → BookSat l (k (some st)) Q s) :
    BookSat l ((policy.stamp id).bind k) Q s := by
  cases policy with
  | always t =>
    simp only [StampPolicy.stamp,Prog.bind_assoc]
    exact stampOrderbookEvent_sat hp hs fun s st hs => hsome s st ⟨hs.1,hs.2.1,Nat.zero_le _⟩
  | ifQuiescent q =>
    refine sat_op hs (fun _ _ => Book.At.since) fun s hs => ⟨hs.1,fun ch => ?_⟩
    simp only [BookOp.exec]
    cases tryStampOrderbookEventQuiescent s.registry id s.now q with
    | none => exact hnone s hs
    | some out =>
      refine hsome _ _ ⟨hs,fun _ => ?_,Nat.zero_le _⟩
      exact s.calm_retried id

theorem updateOrderEventStamped_sat {status : Status} {policy : StampPolicy} (hp : policy.Suits l)
    (hs : s.At l b) :
    BookSat l (updateOrderEventStamped status order policy)
      (fun r s => s.At l b ∧ ∀ e, r = .error e → s.Ready l b order.id 0) s := by
  refine orderToTags_sat hs (fun s tags hs => ?_) fun s e hs => ⟨hs.1,fun _ _ => hs⟩
  cases tags with
  | false => exact ⟨hs,nofun⟩
  | true =>
    refine stamp_sat hp hs (fun s hs => ⟨hs,nofun⟩) fun s st hs => ?_
    refine newOrderEvent_sat hs (fun s hs => ?_) fun s e hs => ⟨hs.1,fun _ _ => hs⟩
    refine System.Sat.bind ((sendStamped_sat hs.1 hs.2.1).mono ?_)
    rintro _ s ⟨rfl,hs⟩
    exact ⟨hs,nofun⟩

theorem markOrderbookPublishFailed_sat {id : Uuid} {g : Nat} (hs : s.Owing l b id g)
    (hg : g ≤ s.registry.generation) :
    BookSat l (markOrderbookPublishFailed id)
      (fun r s => r = .ok () ∧ s.At l b) s := by
  refine sat_op (T := fun s => s.Owing l b id g ∧ g ≤ s.registry.generation) ⟨hs,hg⟩
    (fun _ _ h hr => ⟨h.1.since hr,h.2.trans hr.generation⟩) fun s hs => ⟨trivial,fun _ => ?_⟩
  refine markFailedAt_sat ⟨fun id' g' ho => ?_,hs.1.2⟩
  obtain ⟨hid,hle⟩ := hs.1.1 id' g' ho
  exact ⟨hid,(hle.trans hs.2).trans (Nat.le_succ _)⟩

theorem sendFirst_sat {id : Uuid} {g : Nat} {failed : BookM Unit} (hs : s.Ready l b id g)
    (hfailed : ∀ s, s.At l b → BookSat l failed (fun _ s => s.At l b) s) :
    BookSat l (sendFirst id g failed) (fun _ s => s.At l b) s := by
  refine sendEvent_sat hs.1 hs.2.1 hs.2.2 (fun s hs _ => hs) fun s out ho hg hout => ?_
  have hmark := markOrderbookPublishFailed_sat ho hg
  have hrest : BookSat l
      ((markOrderbookPublishFailed id).bind fun _ => failed) (fun _ s => s.At l b) s := by
    refine System.Sat.bind (hmark.mono ?_)
    rintro _ s ⟨rfl,hs⟩
    exact hfailed s hs
  cases out with
  | accepted => exact absurd rfl hout
  | rejected => exact hmark.mono fun _ _ h => h.2
  | error => exact hrest
  | noClient => exact hrest

theorem finalizeOrderPublication_sat (hl : l ≠ .reconciler) (hs : s.At l b) :
    BookSat l (finalizeOrderPublication order)
      (fun _ s => s.At l b) s := by
  refine orderToTags_sat hs (fun s tags hs => ?_) fun s e hs => hs.1
  cases tags with
  | false => exact hs
  | true =>
    refine stampOrderbookEvent_sat hl hs fun s st hs => ?_
    refine newOrderEvent_sat hs (fun s hs => ?_) fun s e hs => hs.1
    refine sat_op hs (fun _ _ => Book.Ready.since) fun s hs => ⟨hs.1.1,fun ch => ?_⟩
    simp only [BookOp.exec]
    cases ch.faults with
    | true => exact hs.1
    | false => exact sendFirst_sat ⟨hs.1,hs.2.1,hs.2.2⟩ fun _ hs => hs

theorem publishChildOrder_sat {child : Order} (hl : l ≠ .reconciler) (hs : s.At l b) :
    BookSat l (publishChildOrder child)
    (fun _ s => s.At l b) s := by
  refine orderToTags_sat hs (fun s tags hs => ?_) fun s e hs => hs.1
  cases tags with
  | false => exact hs
  | true =>
    refine stampOrderbookEvent_sat hl hs fun s st hs => ?_
    refine newOrderEvent_sat hs (fun s hs => ?_) fun s e hs => hs.1
    refine sat_op hs (fun _ _ => Book.Ready.since) fun s hs => ⟨hs.1.1,fun ch => ?_⟩
    simp only [BookOp.exec]
    cases ch.faults with
    | true => exact hs.1
    | false => exact sendFirst_sat ⟨hs.1,hs.2.1,hs.2.2⟩ fun _ hs => hs

theorem requeue_sat (hlt : entry.2.2 < maxOrderbookRepublishAttempts)
    (hs : s.At .reconciler (entry :: b)) :
    BookSat .reconciler (requeue entry)
      (fun r s => r = .ok () ∧ s.At .reconciler b) s := by
  refine sat_op hs (fun _ _ => Book.At.since) fun s hs => ⟨⟨hlt,b,hs⟩,fun _ => ?_⟩
  exact ⟨rfl,hs.1,fun hl => by simp [BookOp.exec,hs.2 hl]⟩

theorem republish_sat (hid : order.id = entry.1) (hlt : entry.2.2 < maxOrderbookRepublishAttempts)
    (hs : s.At .reconciler (entry :: b)) :
    BookSat .reconciler (republish entry order)
      (fun r s => r = .ok () ∧ s.At .reconciler b) s := by
  refine System.Sat.bind ((requeue_sat hlt hs).mono ?_)
  rintro _ s ⟨rfl,hs⟩
  have hsuits : (StampPolicy.ifQuiescent orderbookQuiescentSecs).Suits .reconciler := rfl
  refine System.Sat.bind (System.Sat.attempt ((updateOrderEventStamped_sat hsuits hs).mono ?_))
  intro r s hs
  cases r with
  | ok _ => exact ⟨rfl,hs.1⟩
  | error e =>
    obtain ⟨hat,hcalm,_⟩ := hs.2 e rfl
    exact markFailedAt_sat (hat.owing fun hl => hid ▸ hcalm hl)

theorem reconcileEntry_sat (hs : s.At .reconciler (entry :: b)) :
    BookSat .reconciler (reconcileEntry entry)
      (fun r s => r = .ok () ∧ s.At .reconciler b) s := by
  unfold reconcileEntry
  split
  next hmax =>
    refine sat_op hs (fun _ _ => Book.At.since) fun s hs => ⟨⟨hmax,b,hs⟩,fun _ => ?_⟩
    exact ⟨rfl,hs.1,fun hl => by simp [BookOp.exec,hs.2 hl]⟩
  next hmax =>
    have hlt := Nat.lt_of_not_le hmax
    refine sat_op hs (fun _ _ => Book.At.since) fun s hs => ⟨⟨entry,b,rfl,hs⟩,fun ch => ?_⟩
    simp only [BookOp.exec]
    cases ch.faults with
    | true => exact requeue_sat hlt hs
    | false =>
      simp only [Bool.false_eq_true,if_false]
      cases s.rows.lookup entry.1 with
      | none => exact ⟨rfl,hs.1,fun hl => by simp [hs.2 hl]⟩
      | some row => exact republish_sat row.2 hlt hs

theorem reconcileOrderbookOnce_sat (hs : s.At .reconciler []) :
    BookSat .reconciler reconcileOrderbookOnce
      (fun _ s => s.At .reconciler []) s := by
  refine sat_op hs (fun _ _ => Book.At.since) fun s hs => ⟨hs,fun ch => ?_⟩
  refine System.Sat.mono (System.Sat.forEach_rest (I := fun rest s => s.At .reconciler rest)
    ⟨hs.1,fun _ => rfl⟩ fun entry rest s hs => reconcileEntry_sat hs) ?_
  exact fun _ _ h => h.2

theorem code_sat {l : Publisher} (hs : s.At l []) : BookSat l l.code (fun _ s => s.At l []) s := by
  cases l with
  | reconciler => exact reconcileOrderbookOnce_sat hs
  | handler tid publication =>
    cases publication with
    | update status order t =>
      refine System.Sat.bind
        ((updateOrderEventStamped_sat (by simp [StampPolicy.Suits]) hs).mono ?_)
      intro r s hs
      cases r with
      | ok _ => exact hs.1
      | error _ => exact hs.1
    | newOrder order => exact finalizeOrderPublication_sat (by simp) hs
    | childOrder child => exact publishChildOrder_sat (by simp) hs

end

section

abbrev Handles {α : Type} (p : BookM α) : Prop := p.Only fun op => op.reconciles = false

theorem handles_orFail {α : Type} {p : BookM (Except MostroError α)} (h : Handles p) :
    Handles (orFail p) :=
  h.bind fun r => by cases r <;> trivial

theorem handles_sendFirst (id : Uuid) (g : Nat) {failed : BookM Unit} (h : Handles failed) :
    Handles (sendFirst id g failed) := by
  refine ⟨rfl,fun out => ?_⟩
  cases out with
  | accepted => trivial
  | rejected => exact ⟨rfl,fun _ => ⟨rfl,fun _ => trivial⟩⟩
  | error => exact ⟨rfl,fun _ => ⟨rfl,fun _ => h⟩⟩
  | noClient => exact ⟨rfl,fun _ => ⟨rfl,fun _ => h⟩⟩

theorem handles_sendStamped (id : Uuid) (g : Nat) : Handles (sendStamped id g) := by
  refine ⟨rfl,fun out => ?_⟩
  cases out <;> exact ⟨rfl,fun _ => trivial⟩

theorem handles_orderToTags (order : Order) : Handles (orderToTags order) :=
  handles_orFail ⟨rfl,fun _ => trivial⟩

theorem handles_newOrderEvent : Handles newOrderEvent := handles_orFail ⟨rfl,fun _ => trivial⟩

theorem handles_updateOrder (order : Order) : Handles (updateOrder order) :=
  handles_orFail ⟨rfl,fun _ => trivial⟩

theorem handles_stamp (id : Uuid) (t : Option Nat) : Handles (stampOrderbookEvent id t) :=
  ⟨rfl,fun _ => trivial⟩

theorem Publication.code_handles (p : Publication) : Handles p.code := by
  cases p with
  | update status order t =>
    refine Prog.Only.bind ?_ fun _ => trivial
    refine (handles_orderToTags _).bind fun tags => ?_
    cases tags with
    | false => trivial
    | true =>
      refine Prog.Only.bind ((handles_stamp _ _).bind fun _ => trivial) fun st => ?_
      cases st with
      | none => trivial
      | some st =>
        exact handles_newOrderEvent.bind fun _ => (handles_sendStamped _ _).bind fun _ => trivial
  | newOrder order =>
    refine (handles_orderToTags _).bind fun tags => ?_
    cases tags with
    | false => trivial
    | true =>
      exact (handles_stamp _ _).bind fun st => handles_newOrderEvent.bind fun _ =>
        (handles_updateOrder _).bind fun _ => handles_sendFirst _ _ trivial
  | childOrder child =>
    refine (handles_orderToTags _).bind fun tags => ?_
    cases tags with
    | false => trivial
    | true =>
      refine (handles_stamp _ _).bind fun st => handles_newOrderEvent.bind fun _ =>
        (handles_updateOrder _).attempt.bind fun r => ?_
      cases r with
      | ok _ => exact handles_sendFirst _ _ trivial
      | error _ => trivial

end

/-- The runs start with nothing queued and nothing published. -/
def Book.Initial (s : Book) : Prop := s.queue = ∅ ∧ s.batch = [] ∧ s.history = []

abbrev BookState := Config Book Publisher BookOp BookOp.Res MostroError

theorem reconciles_only {D : System.Demand Book Publisher BookOp BookChoice BookMove}
    {c : BookState} (hc : orderbook.Reach D Book.Initial c) {l : Publisher} (hnext : c.AboutTo l op) :
    op.reconciles = true → l = .reconciler := by
  refine System.Reach.only (P := fun l op => op.reconciles = true → l = .reconciler)
    (fun l => by simp [orderbook]) (fun l => ?_) hc hnext
  cases l with
  | reconciler => exact Prog.Only.mono (P := fun _ => True) (Prog.only_true _) fun _ _ _ => rfl
  | handler tid p => exact p.code_handles.mono fun op hop h => by simp [hop] at h

theorem bookContract_keeps : System.Keeps orderbook attemptsLeft bookContract Book.Initial where
  rely_refl := since_refl
  rely_trans _ _ _ _ := since_trans
  distinct l := by simp [orderbook]
  init := by
    rintro s ⟨_,hb,hh⟩ l _
    exact ⟨by simp [hh,owes],fun _ => hb⟩
  start := by
    rintro l s _ ⟨⟩ l' _ _
    exact ⟨since_refl _ _,id⟩
  code := by
    rintro l s _ _ hs ⟨⟩
    exact code_sat hs
  other l l' op ch ls s hco _ hl _ hk _ hd := since_other (by simpa [orderbook] using hco) hl hk hd
  idle l l' op ch ls s hne _ hk hd h := Book.At.apart h (apart_other op ch s (Ne.symm hne) hk)
  env := by
    rintro m ls s _ _ ⟨⟩
    have hsince (l : Publisher) : s.Since l (m.exec s) := by
      cases m <;> exact ⟨apart_of_same rfl rfl le_rfl,fun _ _ hc => hc⟩
    exact ⟨fun _ l _ => ⟨fun _ => hsince l,fun h => Book.At.since h (hsince l)⟩,nofun⟩

theorem reach_pre {c : BookState} (hc : orderbook.Reach attemptsLeft Book.Initial c) {l : Publisher}
    (hnext : c.AboutTo l op) : op.Pre l c.shared :=
  bookContract_keeps.pre (fun _ hc _ _ hnext => reconciles_only hc hnext) hc hnext trivial

end Mostro.Orderbook
