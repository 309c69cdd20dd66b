import Mostro.EscrowAgreement
import Mostro.HandlerOperations
import Mostro.TaskContracts

set_option autoImplicit false

/-!
The retry budget of a buyer's invoice.  A buyer may replace the invoice of a settled order, which
sets `payment_attempts` to zero.  The bookkeeping of a failed payment writes the counter from the
copy of the order that its task has read or was spawned with.  Where an invoice is replaced only
while no payout task works on a copy of the order, the counter covers failures of the new invoice
only.
-/

namespace Mostro

open Interleaving SqlTable

variable {o' : Order} {q : Query} {id : Uuid} {d : Dispatch} {tid : Nat}

def Order.retryView (o : Order) : Uuid × Option PaymentRequest × Int :=
  (o.id,o.buyerInvoice,o.paymentAttempts)

def HeldCopy (l : Label) (o : Order) (s : State) : Prop :=
  (∃ y, (l.tid,y) ∈ s.reads ∧ y.retryView = o.retryView) ∨
    ∃ k d, l.req = .dispatch k d ∧ d.order.retryView = o.retryView

def BooksCopies (l : Label) (op : Op) (s : State) : Prop :=
  match op with
  | .order (.run (.checkFailureRetries o _ n)) =>
      HeldCopy l o s ∧ n ≤ max o.paymentAttempts 0 + 1
  | .spawn d => HeldCopy l d.order s
  | _ => True

def Op.booksCopy : Op → Bool
  | .order (.run (.checkFailureRetries _ _ _)) => true
  | .spawn _ => true
  | _ => false

theorem booksCopies_of_not {l : Label} {op : Op} {s : State} (h : op.booksCopy = false) :
    BooksCopies l op s := by
  unfold BooksCopies
  split
  · cases h
  · cases h
  · trivial

/-- `count_failed_payment` adds at most one failure. -/
def Externals.CountsOnce (ext : Externals) : Prop :=
  ∀ o attempts, (ext.countFailedPayment o attempts).paymentAttempts ≤ max o.paymentAttempts 0 + 1

section

variable {cfg : Settings} {ext : Externals} {D : Requirement} {l : Label} {o : Order}
variable {s s' : State} {α β : Type}
variable {hash : Hash} {claimedAt : Option Int}

def ReadsKept (s s' : State) : Prop := s.reads ⊆ s'.reads

theorem ReadsKept.refl (s : State) : ReadsKept s s := List.Subset.refl _

theorem ReadsKept.trans {s₁ s₂ s₃ : State} (h : ReadsKept s₁ s₂) (h' : ReadsKept s₂ s₃) :
    ReadsKept s₁ s₃ := List.Subset.trans h h'

theorem ReadsKept.exec (ext : Externals) (tid : Nat) (op : Op) (ch : Choice) (s : State) :
    ReadsKept s (exec ext tid op ch s).1 :=
  (exec_effect ext tid op ch s).logs.reads

theorem HeldCopy.grows (hs : ReadsKept s s') (h : HeldCopy l o s) : HeldCopy l o s' := by
  refine h.imp_left ?_
  rintro ⟨y,hy,hview⟩
  exact ⟨y,hs hy,hview⟩

theorem HeldCopy.congr (hview : o.retryView = o'.retryView) (h : HeldCopy l o s) :
    HeldCopy l o' s := by
  unfold HeldCopy
  rwa [← hview]

abbrev copiesContract : Contract State Label Op :=
  watching (fun l => l.req.paysBuyer = true) (fun _ => ReadsKept) BooksCopies

abbrev BooksSat (cfg : Settings) (ext : Externals) (D : Requirement) (l : Label) (p : M α)
    (s : State) : Prop :=
  (daemon cfg ext).Sat D copiesContract l p (fun _ => ReadsKept s) s

theorem only_books {p : M α} (hp : p.Only fun op => op.booksCopy = false) :
    BooksSat cfg ext D l p s := by
  refine System.Sat.of_only (T := ReadsKept s) hp (.refl s) ?_ ?_
  · exact fun s₁ s₂ h hr => h.trans hr
  · intro op ls s₁ hop h _
    exact ⟨booksCopies_of_not hop,fun ch _ => h.trans (.exec ext l.tid op ch s₁)⟩

theorem ask_books {op : Op} (h : op.booksCopy = false) : BooksSat cfg ext D l (ask op) s :=
  only_books (ask_only h)

theorem BooksSat.bind {p : M α} {f : α → M β} (hp : BooksSat cfg ext D l p s)
    (hf : ∀ a s', ReadsKept s s' → BooksSat cfg ext D l (f a) s') :
    BooksSat cfg ext D l (p.bind f) s := by
  refine System.Sat.bind (hp.mono fun r s' hs => ?_)
  cases r with
  | ok a => exact (hf a s' hs).mono fun _ _ h => hs.trans h
  | error e => exact hs

theorem BooksSat.attempt {p : M α} (hp : BooksSat cfg ext D l p s) :
    BooksSat cfg ext D l p.attempt s :=
  System.Sat.attempt (hp.mono fun _ _ h => h)

theorem BooksSat.ignore {p : M α} (hp : BooksSat cfg ext D l p s) :
    BooksSat cfg ext D l p.ignore s :=
  System.Sat.ignore (hp.mono fun _ _ h => h)

theorem books_forEach {xs : List α} {f : α → M Unit}
    (hf : ∀ a ∈ xs, ∀ s', ReadsKept s s' → BooksSat cfg ext D l (f a) s') :
    BooksSat cfg ext D l (Prog.forEach xs f) s :=
  System.Sat.forEach (P := ReadsKept s) (.refl s) fun a ha s' hs =>
    (hf a ha s' hs).mono fun _ _ h => hs.trans h

theorem query_held {a : q.Out} {ch : Choice} (hres : (exec ext l.tid (.query q) ch s).2 = .ok a) :
    ∀ o ∈ q.ordersOut a, HeldCopy l o (exec ext l.tid (.query q) ch s).1 := by
  obtain ⟨hnoted,hrun⟩ := exec_query_ok hres
  intro o ho
  refine .inl ⟨o,?_,rfl⟩
  rw [hnoted]
  refine List.mem_append_left _ (List.mem_map_of_mem ?_)
  rwa [hrun]

theorem books_query_bind {f : q.Out → M β}
    (hf : ∀ a s', (∀ o ∈ q.ordersOut a, HeldCopy l o s') → BooksSat cfg ext D l (f a) s') :
    BooksSat cfg ext D l ((query q).bind f) s := by
  refine sat_ask_bind (T := ReadsKept s) (.refl s) (fun _ _ hr h => h.trans hr) fun s₁ ls hs _ =>
    ⟨trivial,fun ch _ => ?_⟩
  have hs := hs.trans (.exec ext l.tid (.query q) ch s₁)
  exact ⟨fun a hres => (hf a _ (query_held hres)).mono fun _ _ h => hs.trans h,fun _ _ => hs⟩

/-! ### The payout tasks -/

theorem checkFailureRetries_books (hcount : ext.CountsOnce) (hs : HeldCopy l o s) :
    BooksSat cfg ext D l (checkFailureRetries cfg ext o) s := by
  refine (only_books require_only).bind fun _ s hs₁ => ?_
  refine (only_books ensure_only).bind fun _ s hs₂ => ?_
  refine sat_ask_bind (T := ReadsKept s) (.refl s) (fun _ _ hr h => h.trans hr) fun s₁ ls hs₃ _ =>
    ⟨?_,fun ch _ => ?_⟩
  · exact ⟨hs.grows ((hs₁.trans hs₂).trans hs₃),hcount o cfg.paymentAttempts⟩
  · exact ⟨fun _ _ => hs₃.trans (.exec ext l.tid _ ch s₁),
      fun _ _ => hs₃.trans (.exec ext l.tid _ ch s₁)⟩

theorem failedBefore_books {e : MostroError} (hcount : ext.CountsOnce) (hs : HeldCopy l o s) :
    BooksSat cfg ext D l ((checkFailureRetries cfg ext o).ignore.bind fun _ =>
      (.fail e : M PaymentRequest)) s :=
  (checkFailureRetries_books hcount hs).ignore.bind fun _ s _ => ReadsKept.refl s

theorem resolvePayout_books (hcount : ext.CountsOnce) (request : PaymentRequest)
    (hs : HeldCopy l o s) : BooksSat cfg ext D l (resolvePayout cfg ext o request) s := by
  unfold resolvePayout
  split
  · refine (ask_books rfl).attempt.bind fun resolved s hs₁ => ?_
    have hs := hs.grows hs₁
    split
    · split
      · refine (ask_books rfl).attempt.bind fun valid s hs₂ => ?_
        split
        · exact ReadsKept.refl s
        · exact failedBefore_books hcount (hs.grows hs₂)
      · exact failedBefore_books hcount hs
    · exact failedBefore_books hcount hs
  · exact ReadsKept.refl s

theorem doPayment_books (hcount : ext.CountsOnce) (hs : HeldCopy l o s) :
    BooksSat cfg ext D l (doPayment cfg ext o) s := by
  refine (only_books require_only).bind fun request s hs₁ => ?_
  refine (only_books ensure_only).bind fun _ s hs₂ => ?_
  refine (resolvePayout_books hcount request (hs.grows (hs₁.trans hs₂))).bind
    fun request s hs₃ => ?_
  refine (only_books require_only).bind fun _ s hs₄ => ?_
  refine (ask_books rfl).bind fun _ s hs₅ => ?_
  refine (only_books require_only).bind fun decoded s hs₆ => ?_
  refine (ask_books rfl).bind fun now s hs₇ => ?_
  refine (ask_books rfl).bind fun claimed s hs₈ => ?_
  split
  · exact ReadsKept.refl s
  refine sat_ask (T := ReadsKept s) (.refl s) (fun _ _ hr h => h.trans hr) fun s₁ ls hs₉ _ =>
    ⟨?_,fun ch _ => hs₉.trans (.exec ext l.tid _ ch s₁)⟩
  have hkept := hs₁.trans (hs₂.trans (hs₃.trans (hs₄.trans (hs₅.trans (hs₆.trans
    (hs₇.trans (hs₈.trans hs₉)))))))
  exact hs.grows hkept

theorem failPayout_books (hcount : ext.CountsOnce) {pre : Option Order}
    (hs : ∀ o ∈ pre, HeldCopy l o s) :
    BooksSat cfg ext D l (failPayout cfg ext id pre hash claimedAt) s := by
  refine (ask_books rfl).bind fun owned s hs₁ => ?_
  cases pre with
  | none => exact ReadsKept.refl s
  | some order =>
    dsimp only
    split
    · exact ReadsKept.refl s
    · exact (checkFailureRetries_books hcount ((hs order rfl).grows hs₁)).ignore

theorem finalizePayout_books : BooksSat cfg ext D l (finalizePayout o hash claimedAt) s := by
  have hsuccess : BooksSat cfg ext D l (paymentSuccess o) s := by
    refine BooksSat.bind (BooksSat.attempt ((ask_books rfl).bind fun _ s _ => .refl s))
      fun r s _ => ?_
    cases r with
    | error e => exact ReadsKept.refl s
    | ok _ => exact (ask_books rfl).bind fun _ s _ => ReadsKept.refl s
  refine hsuccess.attempt.bind fun final s _ => ?_
  split
  · exact (ask_books rfl).bind fun _ s _ => ReadsKept.refl s
  · exact ReadsKept.refl s

theorem sendPayout_books (hcount : ext.CountsOnce) (hs : HeldCopy l d.order s) :
    BooksSat cfg ext D l (sendPayout cfg ext d) s := by
  have hfails (s' : State) (hs' : ReadsKept s s') : BooksSat cfg ext D l (failPayout cfg ext
      d.order.id (some d.order) d.payoutHash (some d.payoutClaimedAt)).ignore s' := by
    refine (failPayout_books hcount fun o ho => ?_).ignore
    cases ho
    exact hs.grows hs'
  refine (ask_books rfl).attempt.bind fun r s₁ hs₁ => ?_
  split
  · refine (ask_books rfl).bind fun outcome s₂ hs₂ => ?_
    split
    · exact finalizePayout_books.ignore
    · exact hfails s₂ (hs₁.trans hs₂)
    · exact ReadsKept.refl s₂
  · exact ReadsKept.refl s₁
  · refine (ask_books rfl).attempt.bind fun status s₂ hs₂ => ?_
    split
    · exact ReadsKept.refl s₂
    · exact ReadsKept.refl s₂
    · exact ReadsKept.refl s₂
    · exact hfails s₂ (hs₁.trans hs₂)

theorem touchClaim_books : BooksSat cfg ext D l (touchClaim d) s :=
  (ask_books rfl).bind fun _ _ _ => (ask_books rfl).bind fun _ s _ => ReadsKept.refl s

theorem dispatchPayout_books (hcount : ext.CountsOnce) (beats : Nat) (hs : HeldCopy l d.order s) :
    BooksSat cfg ext D l (dispatchPayout cfg ext beats d) s := by
  induction beats generalizing d s with
  | zero =>
    refine touchClaim_books.attempt.bind fun r s₁ hs₁ => ?_
    split
    · exact sendPayout_books hcount (hs.grows hs₁)
    · exact ReadsKept.refl s₁
  | succ beats ih =>
    refine touchClaim_books.attempt.bind fun r s₁ hs₁ => ?_
    split
    · exact ih (hs.grows hs₁)
    · exact ReadsKept.refl s₁

theorem books_query_attempt_bind {f : Except MostroError q.Out → M β}
    (hok : ∀ a s', (∀ o ∈ q.ordersOut a, HeldCopy l o s') → BooksSat cfg ext D l (f (.ok a)) s')
    (herr : ∀ e s', BooksSat cfg ext D l (f (.error e)) s') :
    BooksSat cfg ext D l ((query q).attempt.bind f) s := by
  refine sat_ask_attempt_bind (T := ReadsKept s) (.refl s) (fun _ _ hr h => h.trans hr)
    fun s₁ ls hs _ => ⟨trivial,fun ch _ => ?_⟩
  have hs := hs.trans (.exec ext l.tid (.query q) ch s₁)
  cases hres : (exec ext l.tid (.query q) ch s₁).2 with
  | error e => exact (herr e _).mono fun _ _ h => hs.trans h
  | ok a => exact (hok a _ (query_held hres)).mono fun _ _ h => hs.trans h

theorem reconcileInflightPayout_books (hcount : ext.CountsOnce) :
    BooksSat cfg ext D l (reconcileInflightPayout cfg ext id hash claimedAt) s := by
  refine (ask_books rfl).attempt.bind fun status s₁ _ => ?_
  split
  · refine books_query_attempt_bind (fun found s₂ _ => ?_) fun e s₂ => ReadsKept.refl s₂
    cases found with
    | none => exact ReadsKept.refl s₂
    | some order =>
      dsimp only
      split
      · exact finalizePayout_books
      · exact ReadsKept.refl s₂
  · exact ReadsKept.refl s₁
  · exact ReadsKept.refl s₁
  · refine books_query_attempt_bind (fun found s₂ hfound => ?_) fun e s₂ => ?_
    · refine failPayout_books hcount fun o ho => hfound o ?_
      cases found with
      | none => cases ho
      | some order =>
        obtain rfl : order = o := Option.some.inj ho
        exact List.mem_singleton.mpr rfl
    · exact failPayout_books hcount fun o ho => nomatch ho

theorem jobReconcileInflightPayouts_books (hcount : ext.CountsOnce) :
    BooksSat cfg ext D l (jobReconcileInflightPayouts cfg ext) s := by
  refine (ask_books rfl).bind fun now s₁ _ => ?_
  refine (ask_books rfl).bind fun inflight s₂ _ => ?_
  exact books_forEach fun p _ s₃ _ => (reconcileInflightPayout_books hcount).ignore

theorem jobRetryFailedPayments_books (hcount : ext.CountsOnce) :
    BooksSat cfg ext D l (jobRetryFailedPayments cfg ext) s := by
  refine books_query_bind fun failed s₁ hfailed => books_forEach fun order ho s₂ hs => ?_
  split
  · exact (doPayment_books hcount ((hfailed order ho).grows hs)).ignore
  · exact ReadsKept.refl s₂

theorem unbooked_resolves : Resolves fun op => op.booksCopy = false where
  query _ := rfl
  timestamp := rfl
  bond _ := ⟨rfl,rfl,fun _ _ => rfl,fun _ => rfl⟩
  settle _ := rfl
  close _ := rfl
  insert _ := rfl
  share _ := rfl
  slash _ _ _ _ _ := rfl
  dispute _ := rfl
  check _ := rfl
  create _ := rfl

theorem getOrder_books {f : Order → M β}
    (hf : ∀ o s', HeldCopy l o s' → BooksSat cfg ext D l (f o) s') :
    BooksSat cfg ext D l ((getOrder id).bind f) s := by
  rw [getOrder,requireOrder,Prog.bind_assoc]
  refine books_query_bind fun found s' hfound => ?_
  cases found with
  | none => exact ReadsKept.refl s'
  | some o => exact hf o s' (hfound o (List.mem_singleton.mpr rfl))

theorem updateOrderEvent_books {status : Status} {f : Order → M β}
    (hf : ∀ s', ReadsKept s s' → BooksSat cfg ext D l (f { o with status }) s') :
    BooksSat cfg ext D l ((updateOrderEvent status o).bind f) s := by
  rw [updateOrderEvent,Prog.bind_assoc]
  exact (ask_books rfl).bind fun _ s' hs => hf s' hs

theorem releaseAction_books (hcount : ext.CountsOnce) {sender : Pubkey} {nextTrade : NextTrade} :
    BooksSat cfg ext D l (releaseAction cfg ext id sender nextTrade) s := by
  refine getOrder_books fun order s hs => ?_
  refine (only_books require_only).bind fun _ s₁ hs₁ => ?_
  refine (only_books require_only).bind fun _ s₂ hs₂ => ?_
  refine (only_books ensure_only).bind fun _ s₃ hs₃ => ?_
  refine (only_books ensure_only).bind fun _ s₄ hs₄ => ?_
  refine (only_books (settleSellerHoldInvoice_only (fun _ => rfl) _ _ _)).bind fun _ s₅ hs₅ => ?_
  refine updateOrderEvent_books fun s₆ hs₆ => (ask_books rfl).bind fun settled s₇ hs₇ => ?_
  split
  · exact ReadsKept.refl s₇
  refine (only_books (closeDisputeAfterUserResolution_only unbooked_resolves _ _)).bind
    fun _ s₈ hs₈ => ?_
  refine (only_books (continueOrCloseRange_only unbooked_resolves ext _ _)).bind fun _ s₉ hs₉ => ?_
  refine (only_books (releaseActiveBonds_only unbooked_resolves.toReleases _ _)).ignore.bind
    fun _ s₁₀ hs₁₀ => (doPayment_books hcount ?_).ignore
  have hkept := hs₁.trans (hs₂.trans (hs₃.trans (hs₄.trans (hs₅.trans (hs₆.trans (hs₇.trans
    (hs₈.trans (hs₉.trans hs₁₀))))))))
  exact (hs.grows hkept).congr rfl

theorem adminSettleAction_books (hcount : ext.CountsOnce) {resolution : BondResolution} :
    BooksSat cfg ext D l (adminSettleAction cfg ext id resolution) s := by
  refine getOrder_books fun order s hs => (ask_books rfl).bind fun _ s₁ hs₁ => ?_
  split
  · exact ReadsKept.refl s₁
  refine (only_books ensure_only).bind fun _ s₂ hs₂ => ?_
  refine (only_books (validateBondResolution_only unbooked_resolves.toReads _ _)).bind
    fun _ s₃ hs₃ => ?_
  refine (only_books (settleSellerHoldInvoice_only (fun _ => rfl) _ _ _)).attempt.bind
    fun r s₄ hs₄ => ?_
  cases r with
  | error e => exact ReadsKept.refl s₄
  | ok _ =>
    refine updateOrderEvent_books fun s₅ hs₅ => (ask_books rfl).bind fun settled s₆ hs₆ => ?_
    split
    · exact ReadsKept.refl s₆
    have hs := hs.grows (hs₁.trans (hs₂.trans (hs₃.trans (hs₄.trans (hs₅.trans hs₆)))))
    refine (ask_books rfl).attempt.bind fun found s₇ hs₇ => ?_
    have hrest (s' : State) (hs' : ReadsKept s₇ s') : BooksSat cfg ext D l (do
        (applyBondResolution cfg { order with status := .settledHoldInvoice } resolution
          .lostDispute).ignore
        (resolveRangeMakerBondAtClose { order with status := .settledHoldInvoice }).ignore
        (doPayment cfg ext { order with status := .settledHoldInvoice }).ignore) s' := by
      refine (only_books (applyBondResolution_only unbooked_resolves cfg _ _ _)).ignore.bind
        fun _ s₈ hs₈ => ?_
      refine (only_books
        (resolveRangeMakerBondAtClose_only unbooked_resolves.toCloses _)).ignore.bind
        fun _ s₉ hs₉ => (doPayment_books hcount ?_).ignore
      exact (hs.grows (hs₇.trans (hs'.trans (hs₈.trans hs₉)))).congr rfl
    split
    · exact (only_books (closeDisputeByAdmin_only unbooked_resolves _ _ _)).bind
        fun _ s₈ hs₈ => hrest s₈ hs₈
    · exact hrest s₇ (.refl s₇)

theorem request_books (hcount : ext.CountsOnce) (hl : l.req.paysBuyer = true) :
    BooksSat cfg ext D l (l.req.code cfg ext) s := by
  cases hreq : l.req with
  | message m =>
    rw [hreq] at hl
    cases m with
    | release => exact releaseAction_books hcount
    | admin a =>
      cases a with
      | settle => exact adminSettleAction_books hcount
      | _ => cases hl
    | _ => cases hl
  | rpc a =>
    rw [hreq] at hl
    cases a with
    | settle => exact adminSettleAction_books hcount
    | _ => cases hl
  | dispatch k d => exact dispatchPayout_books hcount k (.inr ⟨k,d,hreq,rfl⟩)
  | job j =>
    rw [hreq] at hl
    cases j with
    | retryFailedPayments => exact jobRetryFailedPayments_books hcount
    | reconcileInflightPayouts => exact jobReconcileInflightPayouts_books hcount
    | _ => cases hl
  | _ =>
    rw [hreq] at hl
    cases hl

theorem copies_watched (cfg : Settings) (D : Requirement) (hcount : ext.CountsOnce) :
    Watched cfg ext D (fun l => l.req.paysBuyer = true) (fun _ => ReadsKept) BooksCopies where
  refl _ s := .refl s
  trans _ _ _ _ h h' := h.trans h'
  launch l s s' h _ _ := by
    obtain ⟨_,rfl⟩ := launch_eq h
    exact List.Subset.refl _
  other l l' op ch ls s _ _ _ _ _ _ := .exec ext l.tid op ch s
  env e ls s s' _ he _ _ _ := he.logs.reads
  code l s hl := (request_books hcount hl).mono fun _ _ _ => trivial

end

def countedSince (id : Uuid) : List RetryMark → List (Option PaymentRequest)
  | [] => []
  | .swapped x :: rest => if x = id then [] else countedSince id rest
  | .counted x invoice :: rest =>
    if x = id then invoice :: countedSince id rest else countedSince id rest

def State.swapped (s : State) (id : Uuid) : Prop := .swapped id ∈ s.retries

/-- Since the invoice of the order was replaced, its counter covers failures of the new invoice
only. -/
def Order.FreshBudget (o : Order) (s : State) : Prop :=
  s.swapped o.id → o.paymentAttempts ≤ (countedSince o.id s.retries).length ∧
    ∀ invoice ∈ countedSince o.id s.retries, invoice = o.buyerInvoice

def Order.Current (o : Order) (s : State) : Prop :=
  s.swapped o.id → o.paymentAttempts ≤ (countedSince o.id s.retries).length ∧
    ∀ r ∈ s.orders, r.order.id = o.id → r.order.buyerInvoice = o.buyerInvoice

def Request.dispatches (id : Uuid) : Request → Bool
  | .dispatch _ d => d.order.id == id
  | _ => false

def State.hasRead (s : State) (tid : Nat) (id : Uuid) : Bool :=
  s.reads.any fun p => p.1 == tid && p.2.id == id

def State.paysOut (s : State) (ls : List Label) (id : Uuid) : Bool :=
  (ls.any fun l => l.req.paysBuyer && (s.hasRead l.tid id || l.req.dispatches id))
    || s.spawned.any fun d => d.order.id == id

/-- The statement writes other values into the invoice or the counter of an order whose invoice was
replaced. -/
def OrderUpdate.overwrites (s : State) (u : OrderUpdate) : Bool :=
  s.orders.any fun r => u.selects s r && s.retries.contains (.swapped r.order.id)
    && (u.set r).order.retryView != r.order.retryView

/-- An invoice is replaced while no payout of the order is in progress, and afterwards nothing but
the bookkeeping of failed payments and another replacement writes the invoice or the counter. -/
def Op.leavesPayouts (ls : List Label) (s : State) : Op → Bool
  | .order (.run (.payNewInvoice id invoice)) =>
      affected ((OrderUpdate.payNewInvoice id invoice).selects s) s.orders == 0 || !s.paysOut ls id
  | .order (.run (.checkFailureRetries _ _ _)) => true
  | .order (.run u) => !u.overwrites s
  | _ => true

abbrev swapsBetweenPayouts : Requirement :=
  .check (fun _ op _ ls s => op.leavesPayouts ls s) fun _ _ _ => true

/-! ### One step -/

/-- Every row was there before, with the columns that `V` says, or is new. -/
def RowsFrom (s s' : State) (V : Order → Order → Prop) : Prop :=
  ∀ r' ∈ s'.orders, s.nextId ≤ r'.order.id ∨
    ∃ r ∈ s.orders, r'.order.id = r.order.id ∧ V r.order r'.order

inductive RetryStep (op : Op) (ls : List Label) (s s' : State) : Prop where
  | kept : s'.retries = s.retries →
      RowsFrom s s' (fun o o' => s.swapped o.id → o'.retryView = o.retryView) →
      RetryStep op ls s s'
  | swap (id : Uuid) : s.paysOut ls id = false → id < s.nextId →
      s'.retries = .swapped id :: s.retries →
      RowsFrom s s' (fun o o' => if o.id = id then o'.paymentAttempts = 0
        else o'.retryView = o.retryView) →
      RetryStep op ls s s'
  | count (o : Order) (failed : Bool) (n : Int) :
      op = .order (.run (.checkFailureRetries o failed n)) →
      s'.retries = .counted o.id o.buyerInvoice :: s.retries →
      RowsFrom s s' (fun x x' => if x.id = o.id then
        x'.paymentAttempts = n ∧ x'.buyerInvoice = x.buyerInvoice
        else x'.retryView = x.retryView) →
      RetryStep op ls s s'

section

variable {l : Label} {op : Op} {ls : List Label} {s s' : State} {u : OrderUpdate}

theorem RetryStep.of_rows (hlog : s'.retries = s.retries) (ho : s'.orders = s.orders) :
    RetryStep op ls s s' :=
  .kept hlog fun r hr => .inr ⟨r,ho ▸ hr,rfl,fun _ => rfl⟩

theorem orderUpdate_unaffected (h : affected (u.selects s) s.orders = 0) :
    RetryStep op ls s (u.run tid s).1 := by
  refine .kept (by simp [OrderUpdate.run,h]) fun r' hr' => ?_
  obtain ⟨r,hr,rfl⟩ := mem_updateWhere.mp hr'
  refine .inr ⟨r,hr,?_⟩
  have hsel : ¬ u.selects s r = true := fun hsel => (affected_pos.mpr ⟨r,hr,hsel⟩).ne' h
  rw [if_neg hsel]
  exact ⟨rfl,fun _ => rfl⟩

theorem swap_retryStep {invoice : Option PaymentRequest} (hc : Consistent s)
    (hd : Op.leavesPayouts ls s (.order (.run (.payNewInvoice id invoice))) = true) :
    RetryStep op ls s ((OrderUpdate.payNewInvoice id invoice).run tid s).1 := by
  let u := OrderUpdate.payNewInvoice id invoice
  by_cases hn : affected (u.selects s) s.orders = 0
  · exact orderUpdate_unaffected hn
  have hpos : 0 < affected (u.selects s) s.orders := Nat.pos_of_ne_zero hn
  obtain ⟨q,hq,hqsel⟩ := affected_pos.mp hpos
  have hqid : q.order.id = id := orderUpdate_id hqsel
  refine .swap id ?_ (hqid ▸ hc.orderIds_lt q hq) ?_ fun r' hr' => ?_
  · simpa [Op.leavesPayouts,u,hn] using hd
  · simp [OrderUpdate.run,hpos,u,OrderUpdate.logRetry]
  · obtain ⟨r,hr,rfl⟩ := mem_updateWhere.mp hr'
    refine .inr ⟨r,hr,?_⟩
    split
    next hsel =>
      have hid : r.order.id = id := orderUpdate_id hsel
      exact ⟨rfl,by simp only [hid,if_true]; rfl⟩
    next hsel =>
      have hid : r.order.id ≠ id := by
        intro hid
        obtain rfl := hc.order_unique hr hq (hid.trans hqid.symm)
        exact hsel hqsel
      exact ⟨rfl,by simp only [hid,if_false]⟩

theorem count_retryStep {o : Order} {failed : Bool} {n : Int} :
    RetryStep (.order (.run (.checkFailureRetries o failed n))) ls s
      ((OrderUpdate.checkFailureRetries o failed n).run tid s).1 := by
  let u := OrderUpdate.checkFailureRetries o failed n
  by_cases hn : affected (u.selects s) s.orders = 0
  · exact orderUpdate_unaffected hn
  have hpos : 0 < affected (u.selects s) s.orders := Nat.pos_of_ne_zero hn
  refine .count o failed n rfl (by simp [OrderUpdate.run,hpos,u,OrderUpdate.logRetry])
    fun r' hr' => ?_
  obtain ⟨r,hr,rfl⟩ := mem_updateWhere.mp hr'
  refine .inr ⟨r,hr,?_⟩
  split
  next hsel =>
    have hid : r.order.id = o.id := orderUpdate_id hsel
    exact ⟨rfl,by simp only [hid,if_true]; exact ⟨rfl,rfl⟩⟩
  next hsel =>
    -- the statement has no condition but the id
    have hid : r.order.id ≠ o.id := fun hid =>
      hsel (by simp [OrderUpdate.selects,OrderUpdate.guard,OrderUpdate.target,hid])
    exact ⟨rfl,by simp only [hid,if_false]⟩

theorem other_retryStep (hlog : u.logRetry = []) (hd : u.overwrites s = false) :
    RetryStep op ls s (u.run tid s).1 := by
  refine .kept (by simp [OrderUpdate.run,hlog]) fun r' hr' => ?_
  obtain ⟨r,hr,rfl⟩ := mem_updateWhere.mp hr'
  refine .inr ⟨r,hr,?_⟩
  split
  next hsel =>
    refine ⟨orderUpdate_set_id hsel,fun hswapped => ?_⟩
    by_contra hview
    have hover : u.overwrites s = true :=
      List.any_eq_true.mpr ⟨r,hr,by simpa [hsel,hview] using show _ ∈ s.retries from hswapped⟩
    simp [hd] at hover
  · exact ⟨rfl,fun _ => rfl⟩

theorem orderUpdate_retryStep (hc : Consistent s) (hop : op = .order (.run u))
    (hd : op.leavesPayouts ls s = true) : RetryStep op ls s (u.run tid s).1 := by
  subst hop
  cases u with
  | payNewInvoice id invoice => exact swap_retryStep hc hd
  | checkFailureRetries o failed n => exact count_retryStep
  | _ => exact other_retryStep rfl (by simpa [Op.leavesPayouts] using hd)

theorem Effect.retryStep (hc : Consistent s) (hd : op.leavesPayouts ls s = true)
    (he : Effect tid op s s') : RetryStep op ls s s' := by
  cases he with
  | quiet hq =>
    obtain ⟨_,_,rfl⟩ := hq
    exact .of_rows rfl rfl
  | order st hop =>
    cases st with
    | create o =>
      refine .kept rfl fun r hr => ?_
      rcases List.mem_append.mp hr with hr | hr
      · exact .inr ⟨r,hr,rfl,fun _ => rfl⟩
      · rw [List.mem_singleton.mp hr]
        exact .inl le_rfl
    | run u => exact orderUpdate_retryStep hc hop hd
    | deleteStranded id =>
      exact .kept rfl fun r hr => .inr ⟨r,List.mem_of_mem_filter hr,rfl,fun _ => rfl⟩
  | bond st hop => exact .of_rows (bondStmt_rest st s State.retries) (bondStmt_orders st s)
  | _ => exact .of_rows rfl rfl

structure BudgetsFresh (s : State) : Prop where
  ids : ∀ id, s.swapped id → id < s.nextId
  rows : ∀ r ∈ s.orders, r.order.FreshBudget s

theorem retryView_id {o : Order} (h : o'.retryView = o.retryView) : o'.id = o.id :=
  congrArg Prod.fst h

theorem retryView_buyerInvoice {o : Order} (h : o'.retryView = o.retryView) :
    o'.buyerInvoice = o.buyerInvoice := congrArg (fun v => v.2.1) h

theorem retryView_paymentAttempts {o : Order} (h : o'.retryView = o.retryView) :
    o'.paymentAttempts = o.paymentAttempts := congrArg (fun v => v.2.2) h

theorem Order.Current.congr {o : Order} (hview : o'.retryView = o.retryView) (h : o.Current s) :
    o'.Current s := by
  unfold Order.Current at h ⊢
  rwa [retryView_id hview,retryView_buyerInvoice hview,retryView_paymentAttempts hview]

theorem Order.FreshBudget.congr {o : Order} (hview : o'.retryView = o.retryView)
    (h : o.FreshBudget s) : o'.FreshBudget s := by
  unfold Order.FreshBudget at h ⊢
  rwa [retryView_id hview,retryView_buyerInvoice hview,retryView_paymentAttempts hview]

theorem BudgetsFresh.current (hc : Consistent s) (h : BudgetsFresh s) {r : OrderRow}
    (hr : r ∈ s.orders) : r.order.Current s := by
  intro hswapped
  refine ⟨(h.rows r hr hswapped).1,fun q hq hid => ?_⟩
  rw [hc.order_unique hq hr hid]

theorem RowsFrom.old {V : Order → Order → Prop} (hb : BudgetsFresh s) (hrows : RowsFrom s s' V)
    (hold : s.swapped id) {r' : OrderRow} (hr' : r' ∈ s'.orders) (hid : r'.order.id = id) :
    ∃ r ∈ s.orders, r.order.id = id ∧ V r.order r'.order := by
  rcases hrows r' hr' with hnew | ⟨r,hr,hid',hview⟩
  · exact absurd (hb.ids id hold) (Nat.not_lt.mpr (hid ▸ hnew))
  · exact ⟨r,hr,hid'.symm.trans hid,hview⟩

theorem Order.Current.step {o : Order} (hb : BudgetsFresh s) (hstep : RetryStep op ls s s')
    (hout : s.paysOut ls o.id = true) (h : o.Current s) : o.Current s' := by
  intro hswapped
  cases hstep with
  | kept hlog hrows =>
    have hold : s.swapped o.id := by rwa [State.swapped,hlog] at hswapped
    rw [hlog]
    refine ⟨(h hold).1,fun r' hr' hid => ?_⟩
    obtain ⟨r,hr,hrid,hview⟩ := hrows.old hb hold hr' hid
    rw [retryView_buyerInvoice (hview (hrid ▸ hold))]
    exact (h hold).2 r hr hrid
  | swap id hnone hlt hlog hrows =>
    have hne : id ≠ o.id := by
      rintro rfl
      rw [hnone] at hout
      cases hout
    have hold : s.swapped o.id := by
      rw [State.swapped,hlog] at hswapped
      exact (List.mem_cons.mp hswapped).resolve_left fun heq => hne (RetryMark.swapped.inj heq).symm
    rw [hlog,countedSince,if_neg hne]
    refine ⟨(h hold).1,fun r' hr' hid => ?_⟩
    obtain ⟨r,hr,hrid,hview⟩ := hrows.old hb hold hr' hid
    simp only [hrid,hne.symm,if_false] at hview
    rw [retryView_buyerInvoice hview]
    exact (h hold).2 r hr hrid
  | count x failed n _ hlog hrows =>
    have hold : s.swapped o.id := by
      rw [State.swapped,hlog] at hswapped
      exact (List.mem_cons.mp hswapped).resolve_left nofun
    refine ⟨?_,fun r' hr' hid => ?_⟩
    · have hle := (h hold).1
      rw [hlog,countedSince]
      split
      · simp only [List.length_cons,Nat.cast_add,Nat.cast_one]
        omega
      · exact hle
    · obtain ⟨r,hr,hrid,hview⟩ := hrows.old hb hold hr' hid
      rw [← (h hold).2 r hr hrid]
      split at hview
      · exact hview.2
      · exact retryView_buyerInvoice hview

theorem BudgetsFresh.step (hnext : s.nextId ≤ s'.nextId) (hstep : RetryStep op ls s s')
    (hcount : ∀ o failed n, op = .order (.run (.checkFailureRetries o failed n)) →
      o.Current s ∧ n ≤ max o.paymentAttempts 0 + 1)
    (h : BudgetsFresh s) : BudgetsFresh s' := by
  cases hstep with
  | kept hlog hrows =>
    refine ⟨fun id hid => ?_,fun r' hr' hswapped => ?_⟩
    · exact lt_of_lt_of_le (h.ids id (by rwa [State.swapped,hlog] at hid)) hnext
    · have hold : s.swapped r'.order.id := by rwa [State.swapped,hlog] at hswapped
      obtain ⟨r,hr,hrid,hview⟩ := hrows.old h hold hr' rfl
      have hfresh := (h.rows r hr).congr (hview (hrid ▸ hold)) hold
      rwa [hlog]
  | swap id hnone hlt hlog hrows =>
    have hold {x : Uuid} (hx : s'.swapped x) (hne : id ≠ x) : s.swapped x := by
      rw [State.swapped,hlog] at hx
      exact (List.mem_cons.mp hx).resolve_left fun heq => hne (RetryMark.swapped.inj heq).symm
    refine ⟨fun x hx => ?_,fun r' hr' hswapped => ?_⟩
    · by_cases hne : id = x
      · exact lt_of_lt_of_le (hne ▸ hlt) hnext
      · exact lt_of_lt_of_le (h.ids x (hold hx hne)) hnext
    · by_cases hne : id = r'.order.id
      · -- the order whose invoice is replaced starts from zero
        rcases hrows r' hr' with hnew | ⟨r,hr,hrid,hview⟩
        · exact absurd hlt (Nat.not_lt.mpr (hne ▸ hnew))
        · rw [if_pos (hrid.symm.trans hne.symm)] at hview
          rw [hlog,countedSince,if_pos hne,hview]
          exact ⟨le_rfl,fun _ hmem => nomatch hmem⟩
      · obtain ⟨r,hr,hrid,hview⟩ := hrows.old h (hold hswapped hne) hr' rfl
        rw [if_neg (hrid ▸ Ne.symm hne)] at hview
        rw [hlog,countedSince,if_neg hne]
        exact (h.rows r hr).congr hview (hold hswapped hne)
  | count o failed n hop hlog hrows =>
    obtain ⟨hcurrent,hn⟩ := hcount o failed n hop
    have hold {x : Uuid} (hx : s'.swapped x) : s.swapped x := by
      rw [State.swapped,hlog] at hx
      exact (List.mem_cons.mp hx).resolve_left nofun
    refine ⟨fun x hx => lt_of_lt_of_le (h.ids x (hold hx)) hnext,fun r' hr' hswapped => ?_⟩
    have hswap := hold hswapped
    obtain ⟨r,hr,hrid,hview⟩ := hrows.old h hswap hr' rfl
    rw [hlog,countedSince]
    by_cases heq : o.id = r'.order.id
    · rw [if_pos (hrid.trans heq.symm)] at hview
      obtain ⟨hle,hsame⟩ := hcurrent (heq ▸ hswap)
      obtain ⟨_,hold⟩ := h.rows r hr (hrid ▸ hswap)
      rw [heq] at hle
      rw [hrid] at hold
      refine ⟨?_,fun inv hinv => ?_⟩
      · rw [if_pos heq,hview.1]
        simp only [List.length_cons,Nat.cast_add,Nat.cast_one]
        omega
      · rw [if_pos heq] at hinv
        rcases List.mem_cons.mp hinv with rfl | hinv
        · exact (hsame r hr (hrid.trans heq.symm)).symm.trans hview.2.symm
        · exact (hold inv hinv).trans hview.2.symm
    · rw [if_neg (hrid ▸ Ne.symm heq)] at hview
      simp only [if_neg heq]
      exact (h.rows r hr).congr hview hswap

end

section

variable {cfg : Settings} {ext : Externals} {l : Label} {op : Op} {ls : List Label} {s s' : State}

theorem mem_learn_of_ordersOut {a : q.Out} {o : Order} (h : o ∈ q.ordersOut a) :
    .order o ∈ q.learn a := by
  cases q <;> first | exact ⟨o,h,rfl⟩ | cases h

theorem exec_reads {ch : Choice} {p : Nat × Order} (hp : p ∈ (exec ext tid op ch s).1.reads) :
    p ∈ s.reads ∨ p.1 = tid ∧ ∃ r ∈ (exec ext tid op ch s).1.orders, r.order = p.2 := by
  by_cases hq : ∃ q, op = .query q
  · obtain ⟨q,rfl⟩ := hq
    cases hres : (exec ext tid (.query q) ch s).2 with
    | error e =>
      refine .inl ?_
      simp only [exec,orFault] at hp hres
      split at hp
      · exact hp
      next hch => simp [hch] at hres
    | ok a =>
      obtain ⟨hnoted,hrun⟩ := exec_query_ok hres
      rw [hnoted] at hp ⊢
      refine (List.mem_append.mp hp).symm.imp_right fun hp => ?_
      obtain ⟨o,ho,rfl⟩ := List.mem_map.mp hp
      exact ⟨rfl,query_learn_seen q (mem_learn_of_ordersOut ho)⟩
  · exact .inl ((exec_sameClock (fun q h => hq ⟨q,h⟩) ext tid ch s).2 ▸ hp)

theorem Effect.spawned (he : Effect tid op s s') (hd : d ∈ s'.spawned) :
    d ∈ s.spawned ∨ ∃ d', op = .spawn d' ∧ d'.order = d.order := by
  cases he with
  | quiet hq =>
    obtain ⟨_,_,rfl⟩ := hq
    exact .inl hd
  | order st hop => cases st <;> exact .inl hd
  | bond st hop => exact .inl (bondStmt_rest st s State.spawned ▸ hd)
  | spawn d' hop =>
    refine (List.mem_append.mp hd).imp_right fun hd => ⟨d',hop,?_⟩
    rw [List.mem_singleton.mp hd]
  | _ => exact .inl hd

structure SwapsSafe (s : State) : Prop where
  budgets : BudgetsFresh s
  tids : ∀ p ∈ s.reads, p.1 < s.nextId
  spawned : ∀ d ∈ s.spawned, d.order.Current s

def HoldsCurrent (l : Label) (s : State) : Prop :=
  l.tid < s.nextId ∧ (l.req.paysBuyer = true → ∀ o, HeldCopy l o s → o.Current s)

structure Untouched (s s' : State) : Prop where
  reads : s'.reads = s.reads
  retries : s'.retries = s.retries
  orders : s'.orders = s.orders
  nextId : s.nextId ≤ s'.nextId

theorem Order.Current.untouched {o : Order} (hu : Untouched s s') (h : o.Current s) :
    o.Current s' := by
  unfold Order.Current State.swapped at h ⊢
  rwa [hu.retries,hu.orders]

theorem BudgetsFresh.untouched (hu : Untouched s s') (h : BudgetsFresh s) : BudgetsFresh s' := by
  refine ⟨fun id hid => lt_of_lt_of_le (h.ids id ?_) hu.nextId,fun r hr => ?_⟩
  · rwa [State.swapped,hu.retries] at hid
  · have hfresh := h.rows r (hu.orders ▸ hr)
    unfold Order.FreshBudget State.swapped at hfresh ⊢
    rwa [hu.retries]

theorem HoldsCurrent.untouched (hu : Untouched s s') (h : HoldsCurrent l s) :
    HoldsCurrent l s' := by
  refine ⟨lt_of_lt_of_le h.1 hu.nextId,fun hl o hheld => (h.2 hl o ?_).untouched hu⟩
  unfold HeldCopy at hheld ⊢
  rwa [hu.reads] at hheld

theorem SwapsSafe.untouched (hu : Untouched s s') (hsub : ∀ d ∈ s'.spawned, d ∈ s.spawned)
    (h : SwapsSafe s) : SwapsSafe s' where
  budgets := h.budgets.untouched hu
  tids p hp := lt_of_lt_of_le (h.tids p (hu.reads ▸ hp)) hu.nextId
  spawned d hd := (h.spawned d (hsub d hd)).untouched hu

theorem launch_untouched (hl : l.launch cfg s = some s') : Untouched s s' := by
  obtain ⟨_,rfl⟩ := launch_eq hl
  exact ⟨rfl,rfl,rfl,Nat.le_succ _⟩

theorem Moves.untouched {e : Env} (he : Moves s e s') : Untouched s s' := by
  refine ⟨?_,?_,he.rowsKept.orders,he.rowsKept.nextId⟩ <;> cases he <;> rfl

theorem Moves.spawned_subset {e : Env} (he : Moves s e s') : ∀ d ∈ s'.spawned, d ∈ s.spawned := by
  cases he with
  | crash => exact fun d hd => nomatch hd
  | _ => exact fun d hd => hd

theorem launch_holdsCurrent (hl : l.launch cfg s = some s') (h : SwapsSafe s) :
    HoldsCurrent l s' := by
  have hu := launch_untouched hl
  obtain ⟨_,hs'⟩ := launch_eq hl
  unfold Label.launch at hl
  split at hl
  next hguard =>
    refine ⟨by simp [hs',hguard.1],fun _ o hheld => ?_⟩
    rcases hheld with ⟨y,hy,_⟩ | ⟨k,d,hreq,hview⟩
    · have hlt : l.tid < s.nextId := h.tids _ (hu.reads ▸ hy)
      exact absurd hguard.1 (Nat.ne_of_lt hlt)
    · rw [hreq] at hl
      dsimp only at hl
      split at hl
      next hmem => exact ((h.spawned d hmem).congr hview.symm).untouched hu
      · cases hl
  · cases hl

theorem launch_spawned_subset (hl : l.launch cfg s = some s') :
    ∀ d ∈ s'.spawned, d ∈ s.spawned := by
  unfold Label.launch at hl
  split at hl
  · split at hl
    · split at hl
      · cases hl
        exact fun d hd => List.mem_of_mem_erase hd
      · cases hl
    · cases hl
      exact fun d hd => hd
  · cases hl

theorem paysOut_of_held (hl : l ∈ ls) (hpays : l.req.paysBuyer = true) {o : Order}
    (h : HeldCopy l o s) : s.paysOut ls o.id = true := by
  refine Bool.or_eq_true_iff.mpr (.inl (List.any_eq_true.mpr ⟨l,hl,?_⟩))
  refine Bool.and_eq_true_iff.mpr ⟨hpays,Bool.or_eq_true_iff.mpr ?_⟩
  rcases h with ⟨y,hy,hview⟩ | ⟨k,d,hreq,hview⟩
  · refine .inl (List.any_eq_true.mpr ⟨_,hy,?_⟩)
    simp [retryView_id hview]
  · refine .inr ?_
    rw [hreq]
    exact beq_iff_eq.mpr (retryView_id hview)

theorem paysOut_of_spawned (h : d ∈ s.spawned) : s.paysOut ls d.order.id = true :=
  Bool.or_eq_true_iff.mpr (.inr (List.any_eq_true.mpr ⟨d,h,beq_self_eq_true _⟩))

theorem swapsSafe_exec {ch : Choice} (hk : Knowing l op ls s) (hd : op.leavesPayouts ls s = true)
    (hpre : l.req.paysBuyer = true → BooksCopies l op s) (h : SwapsSafe s)
    (hall : ∀ l' ∈ ls, HoldsCurrent l' s) :
    SwapsSafe (exec ext l.tid op ch s).1 ∧
      ∀ l' ∈ ls, HoldsCurrent l' (exec ext l.tid op ch s).1 := by
  have he := exec_effect ext l.tid op ch s
  have hstep := he.retryStep hk.consistent hd
  have hnext := he.nextId_le
  -- only a task that pays buyers counts failures and spawns payouts
  obtain ⟨Γ,hn,hΓ⟩ := hk.need
  have hpays : op.booksCopy = true → l.req.paysBuyer = true := by
    intro hop
    unfold Op.booksCopy at hop
    split at hop
    · exact hn.2.1
    · exact hn.1
    · cases hop
  have hheld {o : Order} (hp : l.req.paysBuyer = true) (ho : HeldCopy l o s) : o.Current s :=
    (hall l hk.running).2 hp o ho
  have hbudgets : BudgetsFresh (exec ext l.tid op ch s).1 := by
    refine h.budgets.step hnext hstep ?_
    rintro o failed n rfl
    have hp := hpays rfl
    exact ⟨hheld hp (hpre hp).1,(hpre hp).2⟩
  refine ⟨⟨hbudgets,fun p hp => ?_,fun d hd' => ?_⟩,fun l' hl' => ⟨?_,fun hp o ho => ?_⟩⟩
  · rcases exec_reads hp with hp | ⟨hp,_⟩
    · exact lt_of_lt_of_le (h.tids p hp) hnext
    · rw [hp]
      exact lt_of_lt_of_le (hall l hk.running).1 hnext
  · rcases he.spawned hd' with hold | ⟨d',rfl,hsame⟩
    · exact (h.spawned d hold).step h.budgets hstep (paysOut_of_spawned hold)
    · have hp := hpays rfl
      have hcopy : HeldCopy l d'.order s := hpre hp
      rw [← hsame]
      exact (hheld hp hcopy).step h.budgets hstep (paysOut_of_held hk.running hp hcopy)
  · exact lt_of_lt_of_le (hall l' hl').1 hnext
  · -- a copy is one the task held before, or was read from the table just now
    have hold (ho : HeldCopy l' o s) : o.Current (exec ext l.tid op ch s).1 :=
      ((hall l' hl').2 hp o ho).step h.budgets hstep (paysOut_of_held hl' hp ho)
    rcases ho with ⟨y,hy,hview⟩ | hdispatch
    · rcases exec_reads hy with hy | ⟨_,r,hr,heq⟩
      · exact hold (.inl ⟨y,hy,hview⟩)
      · have hc' := consistent_effect hk.consistent hn hΓ he
        have hcur := hbudgets.current hc' hr
        exact hcur.congr (hview ▸ heq ▸ rfl)
    · exact hold (.inr hdispatch)

theorem swaps_reach {cfg : Settings} (hext : ext.Documented) (hcount : ext.CountsOnce)
    {c : DaemonState} (hc : (daemon cfg ext).Reach swapsBetweenPayouts State.Initial c) :
    SwapsSafe c.shared ∧ ∀ l ∈ c.running, HoldsCurrent l c.shared := by
  refine hc.together ?_ ?_ ?_ ?_
  · rintro s ⟨now,height,rfl⟩
    exact ⟨⟨fun id hid => (nomatch hid),fun r hr => (nomatch hr)⟩,fun p hp => (nomatch hp),
      fun d hd => (nomatch hd)⟩
  · intro l s s' hl h
    have hu := launch_untouched hl
    exact ⟨h.untouched hu (launch_spawned_subset hl),launch_holdsCurrent hl h,
      fun l' hl' => hl'.untouched hu⟩
  · intro c hc l op ch hnext hd h hall
    exact swapsSafe_exec (reach_knowing hext hc hnext) hd
      ((copies_watched cfg _ hcount).pre hext hc hnext) h hall
  · intro e ls s s' _ he h
    have hm := env_moves he
    exact ⟨h.untouched hm.untouched hm.spawned_subset,fun l' hl' => hl'.untouched hm.untouched⟩

/-- Where an invoice is replaced only while no payout of its order is in progress, the retry counter
of an order whose invoice was replaced counts failures of the new invoice only. -/
theorem fresh_retry_budget {cfg : Settings} (hext : ext.Documented) (hcount : ext.CountsOnce)
    {c : DaemonState} (hc : (daemon cfg ext).Reach swapsBetweenPayouts State.Initial c)
    {r : OrderRow} (hr : r ∈ c.shared.orders) : r.order.FreshBudget c.shared :=
  (swaps_reach hext hcount hc).1.budgets.rows r hr

end

theorem plainExternals_countsOnce : plainExternals.CountsOnce := by
  intro n o
  exact le_trans (min_le_left _ _) (by omega)

def startPayout (tid : Nat) (es : Schedule) : Schedule :=
  let c := (daemon plainSettings plainExternals).play System.Demand.none ⟨{},[]⟩ es
  match c.bind fun c => c.shared.spawned.head? with
  | some d => es ++ [.start ⟨tid,.dispatch 0 d⟩]
  | none => es

def failedPayout : Schedule :=
  startPayout 7 (activeSell ++ alone 5 (.message (.fiatSent 1 8 none)) 3
    ++ alone 6 (.message (.release 1 7 none)) 11) ++ steps 0 3 ++ [.env (.failPayment 8)]

theorem new_invoice_failure_counted :
    ∃ c, (daemon plainSettings plainExternals).Reach swapsBetweenPayouts State.Initial c ∧
      ∃ r ∈ c.shared.orders, r.order.paymentAttempts = 1 ∧ r.order.buyerInvoice = some 51 ∧
        countedSince r.order.id c.shared.retries = [some 51] ∧ r.order.FreshBudget c.shared := by
  obtain ⟨c,hc,r,hr,hn,hi,hlog⟩ := reach_of_schedule plainSettings plainExternals
    swapsBetweenPayouts (startPayout 11 (failedPayout ++ steps 0 3
      ++ alone 9 (.message (.addInvoice 1 8 (some 51))) 3
      ++ alone 10 (.job .retryFailedPayments) 5) ++ steps 0 3 ++
      .env (.failPayment 12) :: steps 0 3)
    (fun s => ∃ r ∈ s.orders, r.order.paymentAttempts = 1 ∧ r.order.buyerInvoice = some 51 ∧
      countedSince r.order.id s.retries = [some 51]) (by decide +kernel)
  exact ⟨c,hc,r,hr,hn,hi,hlog,
    fresh_retry_budget plainExternals_documented plainExternals_countsOnce hc hr⟩

/-- The payout task has released its claim when the buyer replaces the invoice; it then writes the
counter it computes from its copy of the order, which counts a failure of the old invoice. -/
theorem old_invoice_failure_counted :
    ∃ cfg ext c, ext.Documented ∧ ext.CountsOnce ∧
      (daemon cfg ext).Reach System.Demand.none State.Initial c ∧
      ∃ r ∈ c.shared.orders, c.shared.swapped r.order.id ∧ r.order.buyerInvoice = some 51 ∧
        r.order.paymentAttempts = 1 ∧ countedSince r.order.id c.shared.retries = [some 50] := by
  obtain ⟨c,hc,r,hr,hs,h⟩ := reach_of_schedule plainSettings plainExternals System.Demand.none
    (failedPayout ++ steps 0 2 ++ .start ⟨9,.message (.addInvoice 1 8 (some 51))⟩ :: steps 1 3
      ++ steps 0 1)
    (fun s => ∃ r ∈ s.orders, .swapped r.order.id ∈ s.retries ∧ r.order.buyerInvoice = some 51 ∧
      r.order.paymentAttempts = 1 ∧ countedSince r.order.id s.retries = [some 50])
    (by decide +kernel)
  exact ⟨_,_,c,plainExternals_documented,plainExternals_countsOnce,hc,r,hr,hs,h⟩

end Mostro
