import Mostro.StoredRows
import Mostro.TaskDiscipline

set_option autoImplicit false

/-!
How an invariant of the daemon is shown: every step other than a statement on orders or bonds
keeps the stored rows, and the tasks' knowledge lasts.  The rows are consistent in every run; a
further invariant only has to be shown for single steps from consistent states.
-/

namespace Mostro

open Interleaving SqlTable

structure RowsKept (s s' : State) : Prop where
  orders : s'.orders = s.orders
  bonds : s'.bonds = s.bonds
  takes : s'.takes = s.takes
  slashes : s'.slashes = s.slashes
  closes : s'.closes = s.closes
  settledBy : s'.settledBy = s.settledBy
  claims : s'.claims = s.claims
  nextId : s.nextId ≤ s'.nextId
  holds : HoldsProgress s s'
  holds_lt : (∀ i ∈ s.holds, i.hash < s.nextId) → ∀ i ∈ s'.holds, i.hash < s'.nextId

theorem RowsKept.of_holds {s s' : State} (orders : s'.orders = s.orders)
    (bonds : s'.bonds = s.bonds) (takes : s'.takes = s.takes) (slashes : s'.slashes = s.slashes)
    (closes : s'.closes = s.closes) (settledBy : s'.settledBy = s.settledBy)
    (claims : s'.claims = s.claims) (nextId : s.nextId ≤ s'.nextId)
    (holds : s'.holds = s.holds) : RowsKept s s' :=
  ⟨orders,bonds,takes,slashes,closes,settledBy,claims,nextId,.of_eq holds,fun h i hi =>
    lt_of_lt_of_le (h i (holds ▸ hi)) nextId⟩

theorem RowsKept.of_setHold {s : State} {h : Hash} {f : Hold → Hold}
    (hf : ∀ i, (f i).hash = i.hash) (hp : HoldsProgress s (s.setHold h f)) :
    RowsKept s (s.setHold h f) := by
  refine ⟨rfl,rfl,rfl,rfl,rfl,rfl,rfl,le_rfl,hp,fun hlt => ?_⟩
  exact forall_updateWhere hlt fun i _ _ hi => by rw [hf]; exact hi

theorem RowsKept.consistent {s s' : State} (h : RowsKept s s') (hc : Consistent s) :
    Consistent s' := by
  have hb : BondsProgress s s' := .of_eq h.bonds
  refine ⟨by rw [h.orders]; exact hc.orderIds,?_,by rw [h.bonds]; exact hc.bondIds,?_,
    h.holds_lt hc.holds_lt,?_,?_,?_⟩
  · intro r hr
    exact lt_of_lt_of_le (hc.orderIds_lt r (h.orders ▸ hr)) h.nextId
  · intro b hb
    exact lt_of_lt_of_le (hc.bondIds_lt b (h.bonds ▸ hb)) h.nextId
  · intro r hr
    exact (hc.escrow r (h.orders ▸ hr)).progress h.holds
  · intro t ht
    exact (hc.takes t (h.takes ▸ ht)).progress h.holds
  · intro b hbm
    exact (hc.bond b (h.bonds ▸ hbm)).progress h.holds hb

theorem Quiet.rowsKept {s s' : State} (h : Quiet s s') : RowsKept s s' := by
  obtain ⟨_,_,rfl⟩ := h
  exact .of_holds rfl rfl rfl rfl rfl rfl rfl le_rfl rfl

theorem Effect.rows {tid : Nat} {op : Op} {s s' : State} (h : Effect tid op s s') :
    RowsKept s s' ∨ (∃ st, op = .order st ∧ s' = (st.exec tid s).1) ∨
      ∃ st, op = .bond st ∧ s' = (st.exec s).1 := by
  cases h with
  | quiet hq => exact .inl hq.rowsKept
  | order st hop => exact .inr (.inl ⟨st,hop,rfl⟩)
  | bond st hop => exact .inr (.inr ⟨st,hop,rfl⟩)
  | create memo amount _ =>
    refine .inl ⟨rfl,rfl,rfl,rfl,rfl,rfl,rfl,Nat.le_succ _,.create,fun hlt i hi => ?_⟩
    rcases List.mem_append.mp hi with hi | hi
    · exact Nat.lt_succ_of_lt (hlt i hi)
    · rw [List.mem_singleton.mp hi]
      exact Nat.lt_succ_self _
  | cancel x _ hst => exact .inl (.of_setHold (fun _ => by rfl) (.cancel hst))
  | settle x _ hst =>
    have h : RowsKept s (s.moveHold x .settled) := .of_setHold (fun _ => by rfl) (.settle hst)
    exact .inl { h with }
  | openDispute d _ _ | register payee x stamp _ _ =>
    exact .inl (.of_holds rfl rfl rfl rfl rfl rfl rfl (Nat.le_succ _) rfl)
  | _ => exact .inl (.of_holds rfl rfl rfl rfl rfl rfl rfl le_rfl rfl)

theorem launch_rowsKept {cfg : Settings} {l : Label} {s s' : State}
    (h : l.launch cfg s = some s') : RowsKept s s' := by
  obtain ⟨_,rfl⟩ := launch_eq h
  exact .of_holds rfl rfl rfl rfl rfl rfl rfl (Nat.le_succ _) rfl

theorem accept_progress {s : State} {h : Hash} {e : Int} (hst : s.holdState h = some .opened) :
    HoldsProgress s (s.setHold h fun i =>
      { i with state := .accepted, paid := true, expiryHeight := e }) := by
  refine HoldsProgress.setHold (fun i hi => ⟨rfl,rfl,rfl,fun _ => rfl,fun hfin => ?_⟩) fun _ => rfl
  simp only [State.holdState,hi,Option.map_some,Option.some.injEq] at hst
  simp [hst] at hfin

theorem Moves.rowsKept {e : Env} {s s' : State} (h : Moves s e s') : RowsKept s s' := by
  cases h with
  | accept x height hst => exact .of_setHold (fun _ => by rfl) (accept_progress hst)
  | cancel x hst => exact .of_setHold (fun _ => by rfl) (.cancel hst)
  | register i sub _ _ => exact .of_holds rfl rfl rfl rfl rfl rfl rfl (Nat.le_succ _) rfl
  | _ => exact .of_holds rfl rfl rfl rfl rfl rfl rfl le_rfl rfl

theorem initial_consistent {s : State} (h : s.Initial) : Consistent s := by
  obtain ⟨now,height,rfl⟩ := h
  have none : ∀ {α : Type} {P : α → Prop}, ∀ a ∈ ([] : List α), P a := by simp
  exact ⟨List.nodup_nil,none,List.nodup_nil,none,none,none,none,none⟩

section

variable {req : Request} {Γ : Set Fact} {tid : Nat} {op : Op} {s s' : State}

theorem consistent_effect (hc : Consistent s) (hn : op.need req Γ) (hΓ : ∀ f ∈ Γ, f.Lasts s)
    (he : Effect tid op s s') : Consistent s' := by
  rcases he.rows with h | ⟨st,rfl,rfl⟩ | ⟨st,rfl,rfl⟩
  · exact h.consistent hc
  · exact consistent_orderStmt hc hn hΓ
  · exact consistent_bondStmt hc hn hΓ

theorem orderStmt_bonds (st : OrderStmt) : (st.exec tid s).1.bonds = s.bonds := by
  cases st <;> rfl

theorem bondStmt_orders (st : BondStmt) (s : State) : (st.exec s).1.orders = s.orders :=
  bondStmt_rest st s State.orders

/-- Where a stored order comes from: it was there and the statement did not select it, it is new, or
the statement wrote it. -/
theorem orderStmt_origin {st : OrderStmt} {r : OrderRow} (hr : r ∈ (st.exec tid s).1.orders) :
    (r ∈ s.orders ∧ ∀ u, st = .run u → u.selects s r = false) ∨
    (∃ o, st = .create o ∧ r = { order := { o with id := s.nextId } }) ∨
    ∃ u q, st = .run u ∧ q ∈ s.orders ∧ u.selects s q = true ∧ r = u.set q := by
  cases st with
  | create o =>
    rcases List.mem_append.mp hr with hr | hr
    · exact .inl ⟨hr,by simp⟩
    · exact .inr (.inl ⟨o,rfl,List.mem_singleton.mp hr⟩)
  | run u =>
    obtain ⟨q,hq,rfl⟩ := mem_updateWhere.mp hr
    split
    next hsel => exact .inr (.inr ⟨u,q,rfl,hq,hsel,rfl⟩)
    next hsel =>
      refine .inl ⟨hq,fun u' h => ?_⟩
      cases h
      exact Bool.eq_false_iff.mpr hsel
  | deleteStranded id => exact .inl ⟨List.mem_of_mem_filter hr,by simp⟩

theorem Effect.row_origin (he : Effect tid op s s') {r : OrderRow} (hr : r ∈ s'.orders) :
    r ∈ s.orders ∨ (∃ o, op = .order (.create o) ∧ r = { order := { o with id := s.nextId } }) ∨
    ∃ u q, op = .order (.run u) ∧ s' = (u.run tid s).1 ∧ q ∈ s.orders ∧ u.selects s q = true ∧
      r = u.set q := by
  rcases he.rows with hk | ⟨st,hop,rfl⟩ | ⟨st,_,rfl⟩
  · exact .inl (hk.orders ▸ hr)
  · rcases orderStmt_origin hr with ⟨hr,_⟩ | ⟨o,rfl,h⟩ | ⟨u,q,rfl,hq,hsel,h⟩
    · exact .inl hr
    · exact .inr (.inl ⟨o,hop,h⟩)
    · exact .inr (.inr ⟨u,q,hop,rfl,hq,hsel,h⟩)
  · exact .inl (bondStmt_orders st s ▸ hr)

theorem bondsProgress_effect (hc : Consistent s) (hn : op.need req Γ) (hΓ : ∀ f ∈ Γ, f.Lasts s)
    (he : Effect tid op s s') : BondsProgress s s' := by
  rcases he.rows with h | ⟨st,rfl,rfl⟩ | ⟨st,rfl,rfl⟩
  · exact .of_eq h.bonds
  · exact .of_eq (orderStmt_bonds st)
  · exact bondStmt_progress hc hn hΓ

end

/-- What is required of the steps of a run of the daemon. -/
abbrev Requirement := System.Demand State Label Op Choice Env

theorem cancel_isSome {req : Request} {Γ : Set Fact} {op : Op} {s : State} (hc : Consistent s)
    (hΓ : ∀ f ∈ Γ, f.Lasts s) (hn : op.need req Γ) :
    ∀ h, op = .lnd (.cancelHoldInvoice h) → (s.hold? h).isSome := by
  rintro h rfl
  exact KnowsHold.isSome hc hΓ hn

theorem learn_lasts {ext : Externals} (hext : ext.Documented) {req : Request} {Γ : Set Fact}
    {tid : Nat} {op : Op} {ch : Choice} {s : State} {f : Fact} (hc : Consistent s)
    (hc' : Consistent (exec ext tid op ch s).1) (hΓ : ∀ f ∈ Γ, f.Lasts s)
    (hn : op.need req Γ) (hf : f ∈ op.learn (exec ext tid op ch s).2) :
    f.Seen (exec ext tid op ch s).1 ∧ f.Lasts (exec ext tid op ch s).1 := by
  have hseen := exec_learn_seen hext hc.hold?_nextId (cancel_isSome hc hΓ hn) hf
  refine ⟨hseen,.of_seen hc' hseen ?_⟩
  rintro b rfl
  cases op with
  | query q =>
    simp only [exec,orFault] at hf
    split at hf
    · exact hf.elim
    · exact hn.parent_locked hc hΓ hf
  | order st =>
    rcases learn_order hf with ⟨_,h⟩ | h
    · cases h
    · exact h.elim
  | bond st =>
    simp only [exec,orFault] at hf
    split at hf <;> cases st <;> simp [Op.learn] at hf
  | lnd c =>
    simp only [Op.learn,LndCall.learn] at hf
    split at hf <;> simp at hf
  | dispute st =>
    obtain ⟨d,hd⟩ := learn_dispute hf
    cases hd
  | _ => exact hf.elim

/-- A property on top of consistent rows, with what the facts mean for it: every step keeps it and
the meaning of what is known, and what an operation teaches means it. -/
structure StepKeeps (ext : Externals) (D : Requirement) (Inv : State → Prop)
    (Means : Label → Fact → State → Prop) : Prop where
  launch : ∀ cfg (l : Label) s s', Consistent s → Inv s → l.launch cfg s = some s' →
    Inv s' ∧ ∀ l (f : Fact), f.Lasts s → Means l f s → Means l f s'
  op : ∀ (l : Label) Γ (op : Op) ch ls s, op.need l.req Γ →
    (∀ f ∈ Γ, f.Lasts s ∧ Means l f s) → Consistent s → Inv s → D.onOp l op ch ls s →
    Effect l.tid op s (exec ext l.tid op ch s).1 →
    Inv (exec ext l.tid op ch s).1 ∧
      ∀ l' ∈ ls, ∀ (f : Fact), f.Lasts s → Means l' f s → Means l' f (exec ext l.tid op ch s).1
  learn : ∀ (l : Label) Γ (op : Op) ch ls s (f : Fact), op.need l.req Γ →
    (∀ f ∈ Γ, f.Lasts s ∧ Means l f s) → Consistent s → Inv s → D.onOp l op ch ls s →
    Consistent (exec ext l.tid op ch s).1 → Inv (exec ext l.tid op ch s).1 →
    f ∈ op.learn (exec ext l.tid op ch s).2 → f.Seen (exec ext l.tid op ch s).1 →
    Means l f (exec ext l.tid op ch s).1
  env : ∀ (e : Env) ls s s', Consistent s → Inv s → D.onEnv e ls s → Moves s e s' →
    Inv s' ∧ ∀ l ∈ ls, ∀ (f : Fact), f.Lasts s → Means l f s → Means l f s'

structure StepInvariant (ext : Externals) (D : Requirement) (Inv : State → Prop)
    (Means : Label → Fact → State → Prop) : Prop extends StepKeeps ext D Inv Means where
  init : ∀ s, s.Initial → Inv s

section

variable {cfg : Settings} {ext : Externals} {D : Requirement} {Inv : State → Prop}
variable {Means : Label → Fact → State → Prop}

theorem StepKeeps.upholds_from (h : StepKeeps ext D Inv Means) (hext : ext.Documented)
    (cfg : Settings) {init : State → Prop} (hinit : ∀ s, init s → Consistent s ∧ Inv s) :
    System.Upholds (daemon cfg ext) D (fun l => discipline l.req)
      (fun s => Consistent s ∧ Inv s) (fun l f s => f.Lasts s ∧ Means l f s) init where
  init := hinit
  code l := request_disciplined hext l.req
  launch l s s' hi hl := by
    have hk := launch_rowsKept hl
    obtain ⟨hinv,hm⟩ := h.launch cfg l s s' hi.1 hi.2 hl
    refine ⟨⟨hk.consistent hi.1,hinv⟩,fun l' f hf => ⟨?_,hm l' f hf.1 hf.2⟩⟩
    exact hf.1.progress hk.nextId hk.holds (.of_eq hk.bonds)
  op l Γ op ch ls s hn hΓ hi hd := by
    have he := exec_effect ext l.tid op ch s
    have hlasts : ∀ f ∈ Γ, f.Lasts s := fun f hf => (hΓ f hf).1
    have hc : Consistent (exec ext l.tid op ch s).1 := consistent_effect hi.1 hn hlasts he
    obtain ⟨hinv,hm⟩ := h.op l Γ op ch ls s hn hΓ hi.1 hi.2 hd he
    refine ⟨⟨hc,hinv⟩,fun l' hl f hf => ⟨?_,hm l' hl f hf.1 hf.2⟩,
      exec_answers ext l.tid op ch s,?_⟩
    · exact hf.1.progress he.nextId_le he.holdsProgress (bondsProgress_effect hi.1 hn hlasts he)
    · intro f hf
      obtain ⟨hseen,hl⟩ := learn_lasts hext hi.1 hc hlasts hn hf
      exact ⟨hl,h.learn l Γ op ch ls s f hn hΓ hi.1 hi.2 hd hc hinv hf hseen⟩
  env e ls s s' hi hd he := by
    have hk := (env_moves he).rowsKept
    obtain ⟨hinv,hm⟩ := h.env e ls s s' hi.1 hi.2 hd (env_moves he)
    refine ⟨⟨hk.consistent hi.1,hinv⟩,fun l' hl f hf => ⟨?_,hm l' hl f hf.1 hf.2⟩⟩
    exact hf.1.progress hk.nextId hk.holds (.of_eq hk.bonds)

theorem StepInvariant.upholds (h : StepInvariant ext D Inv Means) (hext : ext.Documented)
    (cfg : Settings) :
    System.Upholds (daemon cfg ext) D (fun l => discipline l.req)
      (fun s => Consistent s ∧ Inv s) (fun l f s => f.Lasts s ∧ Means l f s) State.Initial :=
  h.upholds_from hext cfg fun s hs => ⟨initial_consistent hs,h.init s hs⟩

theorem StepInvariant.mono {D' : Requirement} (h : StepInvariant ext D Inv Means)
    (hop : ∀ {l op ch ls s}, D'.onOp l op ch ls s → D.onOp l op ch ls s)
    (henv : ∀ {e ls s}, D'.onEnv e ls s → D.onEnv e ls s) : StepInvariant ext D' Inv Means where
  init := h.init
  launch := h.launch
  op l Γ op ch ls s hn hΓ hc hi hd := h.op l Γ op ch ls s hn hΓ hc hi (hop hd)
  learn l Γ op ch ls s f hn hΓ hc hi hd := h.learn l Γ op ch ls s f hn hΓ hc hi (hop hd)
  env e ls s s' hc hi hd := h.env e ls s s' hc hi (henv hd)

theorem StepInvariant.reach (h : StepInvariant ext D Inv Means) (hext : ext.Documented)
    {c : DaemonState} (hc : (daemon cfg ext).Reach D State.Initial c) :
    Consistent c.shared ∧ Inv c.shared :=
  (h.upholds hext cfg).invariant hc

theorem StepInvariant.lasts (h : StepInvariant ext D Inv Means) (hext : ext.Documented)
    {P : State → Prop}
    (hkeep : ∀ {s s' : State}, s'.orders = s.orders → s'.bonds = s.bonds → P s → P s')
    (hop : ∀ (l : Label) Γ (op : Op) ch ls s, op.need l.req Γ →
      (∀ f ∈ Γ, f.Lasts s ∧ Means l f s) → Consistent s → Inv s → D.onOp l op ch ls s →
      Effect l.tid op s (exec ext l.tid op ch s).1 → P s → P (exec ext l.tid op ch s).1)
    {c c' : DaemonState} (hc : (daemon cfg ext).Reach D State.Initial c)
    (hr : (daemon cfg ext).Run D c c') (hp : P c.shared) : P c'.shared := by
  refine (h.upholds hext cfg).lasts (fun l s s' _ hl hp => ?_) (fun l Γ op ch ls s hn hΓ hi hd hp =>
    ?_) (fun e ls s s' _ _ he hp => ?_) hc hr hp
  · have hk := launch_rowsKept hl
    exact hkeep hk.orders hk.bonds hp
  · exact hop l Γ op ch ls s hn hΓ hi.1 hi.2 hd (exec_effect ext l.tid op ch s) hp
  · have hk := (env_moves he).rowsKept
    exact hkeep hk.orders hk.bonds hp

theorem trivial_invariant (ext : Externals) (D : Requirement) :
    StepInvariant ext D (fun _ => True) (fun _ _ _ => True) where
  init _ _ := trivial
  launch _ _ _ _ _ _ _ := ⟨trivial,fun _ _ _ _ => trivial⟩
  op _ _ _ _ _ _ _ _ _ _ _ _ := ⟨trivial,fun _ _ _ _ _ => trivial⟩
  learn _ _ _ _ _ _ _ _ _ _ _ _ _ _ _ _ := trivial
  env _ _ _ _ _ _ _ _ := ⟨trivial,fun _ _ _ _ _ => trivial⟩

theorem reach_consistent (hext : ext.Documented) {c : DaemonState}
    (hc : (daemon cfg ext).Reach D State.Initial c) : Consistent c.shared :=
  ((trivial_invariant ext D).reach hext hc).1

theorem row_step {c c' : DaemonState} {e : Event Label Choice Env} (hm : System.Meets D c e)
    (hs : (daemon cfg ext).step c e = some c') {r : OrderRow} (hr : r ∈ c'.shared.orders) :
    r ∈ c.shared.orders ∨
    (∃ l o, c.AboutTo l (.order (.create o)) ∧ r = { order := { o with id := c.shared.nextId } }) ∨
    ∃ l u ch q, c.AboutTo l (.order (.run u)) ∧ D.onOp l (.order (.run u)) ch c.running c.shared ∧
      c'.shared = (OrderUpdate.run l.tid c.shared u).1 ∧ q ∈ c.shared.orders ∧
      u.selects c.shared q = true ∧ r = u.set q := by
  rcases System.step_shared hm hs with ⟨l,hl⟩ | ⟨l,op,ch,hnext,hd,hexec⟩ | ⟨e,_,he⟩
  · exact .inl ((launch_rowsKept hl).orders ▸ hr)
  · have heff := exec_effect ext l.tid op ch c.shared
    have hexec : c'.shared = (exec ext l.tid op ch c.shared).1 := hexec
    rw [← hexec] at heff
    rcases heff.row_origin hr with hr | ⟨o,rfl,h⟩ | ⟨u,q,rfl,hrun,hq,hsel,h⟩
    · exact .inl hr
    · exact .inr (.inl ⟨l,o,hnext,h⟩)
    · exact .inr (.inr ⟨l,u,ch,q,hnext,hd,hrun,hq,hsel,h⟩)
  · exact .inl ((env_moves he).rowsKept.orders ▸ hr)

end

/-- External code as simple as the assumptions allow: payment requests are their own hashes, fees
are zero, and the node's replies are LND's. -/
def plainExternals : Externals where
  decodeInvoice request := some (request,none)
  isAddress _ := false
  setupDispute o isBuyer := some { o with
    status := .dispute, buyerDispute := o.buyerDispute || isBuyer,
    sellerDispute := o.sellerDispute || !isBuyer }
  countFailedPayment o attempts := { o with
    failedPayment := true, paymentAttempts := min (o.paymentAttempts + 1) attempts }
  fullPrivacyKeys o := some (o.masterBuyerPubkey,o.masterSellerPubkey)
  fee := 0
  devFeePercentage := 0
  maxRoutingFee := 0
  texts :=
    { transport := "transport error"
      cancelSettled := "invoice already settled"
      cancelCanceled := "invoice already canceled"
      cancelUnknown := "unable to locate invoice"
      settleOpen := "invoice still open"
      settleSettled := "invoice already settled"
      settleCanceled := "invoice already canceled"
      settleUnknown := "unable to locate invoice" }

theorem plainExternals_documented : plainExternals.Documented where
  texts := by constructor <;> decide
  setupDispute o isBuyer o' h := by
    cases h
    rfl
  countFailedPayment _ _ := rfl

def plainSettings : Settings where
  bond := none
  expirationSeconds := 900
  paymentAttempts := 3
  paymentRetriesInterval := 60
  holdInvoiceCltvDelta := 144
  escrowDeadlineMarginBlocks := 36

def bondSettings (applyTo : BondApplyTo) (amount : Int) : Settings :=
  { plainSettings with
    bond := some
      { enabled := true, amountPct := 0, baseAmountSats := amount, applyTo,
        slashOnWaitingTimeout := true, slashNodeSharePct := 0, payoutInvoiceWindowSeconds := 300,
        payoutMaxRetries := 5, payoutClaimWindowDays := 15 } }

abbrev Schedule := List (Event Label Choice Env)

def steps (i n : Nat) : Schedule := List.replicate n (.step i .ok)

def alone (tid : Nat) (req : Request) (n : Nat) : Schedule := .start ⟨tid,req⟩ :: steps 0 n

def quoted (tid : Nat) (req : Request) (before : Nat) (price : Nat) (after : Nat) : Schedule :=
  alone tid req before ++ .step 0 (.pick price) :: steps 0 after

def takenSell : Schedule :=
  alone 0 (.message (.newOrder ⟨some .sell,5000,100,none,none,none,100000⟩ 7 7 7 none)) 5
  ++ alone 2 (.message (.takeSell ⟨1,8,8,none,none,some 50⟩)) 12

theorem reach_of_schedule (cfg : Settings) (ext : Externals) (D : Requirement) [D.Checkable]
    (es : Schedule) (P : State → Prop) [DecidablePred P]
    (h : ((daemon cfg ext).play D ⟨{},[]⟩ es).any (fun c => decide (P c.shared)) = true) :
    ∃ c, (daemon cfg ext).Reach D State.Initial c ∧ P c.shared :=
  System.exists_reach_of_play es ⟨0,0,rfl⟩ h

theorem idle_of_schedule (cfg : Settings) (ext : Externals) (D : Requirement) [D.Checkable]
    (es : Schedule) (P : State → Prop) [DecidablePred P]
    (h : ((daemon cfg ext).play D ⟨{},[]⟩ es).any
      (fun c => c.tasks.isEmpty && decide (P c.shared)) = true) :
    ∃ c, (daemon cfg ext).Reach D State.Initial c ∧ c.tasks = [] ∧ P c.shared := by
  have hreach : ∃ c, (daemon cfg ext).Reach D State.Initial c ∧
      (c.tasks.isEmpty && decide (P c.shared)) = true :=
    System.exists_reach_of_play es ⟨0,0,rfl⟩ (by simpa only [Bool.decide_eq_true] using h)
  obtain ⟨c,hc,hp⟩ := hreach
  obtain ⟨hnone,hp⟩ := Bool.and_eq_true_iff.mp hp
  exact ⟨c,hc,List.isEmpty_iff.mp hnone,of_decide_eq_true hp⟩

theorem run_of_schedules (cfg : Settings) (ext : Externals) (D : Requirement) [D.Checkable]
    (es es' : Schedule) (P Q : State → Prop) [DecidablePred P] [DecidablePred Q]
    (h : ((daemon cfg ext).play D ⟨{},[]⟩ es).any (fun c => decide (P c.shared) &&
      ((daemon cfg ext).play D c es').any fun c' => decide (Q c'.shared)) = true) :
    ∃ c c', (daemon cfg ext).Reach D State.Initial c ∧ (daemon cfg ext).Run D c c' ∧
      P c.shared ∧ Q c'.shared := by
  cases hc : (daemon cfg ext).play D ⟨{},[]⟩ es with
  | none => simp [hc] at h
  | some c =>
    simp only [hc,Option.any_some,Bool.and_eq_true,decide_eq_true_eq] at h
    cases hc' : (daemon cfg ext).play D c es' with
    | none => simp [hc'] at h
    | some c' =>
      have hreach : (daemon cfg ext).Reach D State.Initial c :=
        (System.Reach.init ⟨0,0,rfl⟩).run (System.run_of_play hc)
      exact ⟨c,c',hreach,System.run_of_play hc',h.1,by simpa [hc'] using h.2⟩

theorem aboutTo_of_schedule (cfg : Settings) (ext : Externals) (D : Requirement) [D.Checkable]
    (es : Schedule) (p : Label → Op → State → Bool)
    (h : ((daemon cfg ext).play D ⟨{},[]⟩ es).any
      (fun c => c.anyNext fun l op => p l op c.shared) = true) :
    ∃ c l op, (daemon cfg ext).Reach D State.Initial c ∧ c.AboutTo l op ∧
      p l op c.shared = true := by
  have hreach : ∃ c, (daemon cfg ext).Reach D State.Initial c ∧
      c.anyNext (fun l op => p l op c.shared) = true :=
    System.exists_reach_of_play es ⟨0,0,rfl⟩ (by simpa using h)
  obtain ⟨c,hc,hp⟩ := hreach
  obtain ⟨l,op,hnext,hp⟩ := Config.exists_aboutTo hp
  exact ⟨c,l,op,hc,hnext,hp⟩

theorem step_of_schedule (cfg : Settings) (ext : Externals) (D : Requirement) [D.Checkable]
    (es : Schedule) (e : Event Label Choice Env) (p : State → State → Bool)
    (h : ((daemon cfg ext).play D ⟨{},[]⟩ es).any (fun c => decide (System.Meets D c e) &&
      ((daemon cfg ext).step c e).any fun c' => p c.shared c'.shared) = true) :
    ∃ c c', (daemon cfg ext).Reach D State.Initial c ∧ System.Meets D c e ∧
      (daemon cfg ext).step c e = some c' ∧ p c.shared c'.shared = true := by
  cases hc : (daemon cfg ext).play D ⟨{},[]⟩ es with
  | none => simp [hc] at h
  | some c =>
    simp only [hc,Option.any_some,Bool.and_eq_true,decide_eq_true_eq] at h
    obtain ⟨hm,hstep⟩ := h
    cases hc' : (daemon cfg ext).step c e with
    | none => simp [hc'] at hstep
    | some c' =>
      have hreach : (daemon cfg ext).Reach D State.Initial c :=
        (System.Reach.init ⟨0,0,rfl⟩).run (System.run_of_play hc)
      exact ⟨c,c',hreach,hm,hc',by simpa [hc'] using hstep⟩

theorem run_step_of_schedules (cfg : Settings) (ext : Externals) (D : Requirement) [D.Checkable]
    (es es' : Schedule) (e : Event Label Choice Env) (p : State → State → State → Bool)
    (h : ((daemon cfg ext).play D ⟨{},[]⟩ es).any (fun c₀ => ((daemon cfg ext).play D c₀ es').any
      fun c => decide (System.Meets D c e) && ((daemon cfg ext).step c e).any fun c' =>
        p c₀.shared c.shared c'.shared) = true) :
    ∃ c₀ c c', (daemon cfg ext).Reach D State.Initial c₀ ∧ (daemon cfg ext).Run D c₀ c ∧
      System.Meets D c e ∧ (daemon cfg ext).step c e = some c' ∧
      p c₀.shared c.shared c'.shared = true := by
  simp only [Option.any_eq_true,Bool.and_eq_true,decide_eq_true_eq] at h
  obtain ⟨c₀,h₀,c,hrun,hm,c',hs,hp⟩ := h
  have hreach : (daemon cfg ext).Reach D State.Initial c₀ :=
    (System.Reach.init ⟨0,0,rfl⟩).run (System.run_of_play h₀)
  exact ⟨c₀,c,c',hreach,System.run_of_play hrun,hm,hs,hp⟩

end Mostro
