import Mostro.EscrowTerms
import Mostro.HandlerOperations
import Mostro.TaskContracts

set_option autoImplicit false

/-!
The cashu escrow of an order.  One guarded statement stores it, but takes, key rotations, the
publication of the lock and the expiry job write whole rows from copies they read earlier.  The
message loop handles one message at a time, so only the expiry job can hold a copy from before a
lock; where it finds each order as it read it, a stored escrow stays.
-/

namespace Mostro

open Interleaving SqlTable

variable {r : OrderRow} {o order : Order} {id : Uuid}

structure CashuColumns where
  mint : Option Nat := none
  token : Option Nat := none
  lockedAt : Option Int := none
  deriving DecidableEq

def Order.cashu (o : Order) : CashuColumns where
  mint := o.cashuMintUrl
  token := o.cashuEscrowToken
  lockedAt := o.cashuEscrowLockedAt

def CashuColumns.isLocked (e : CashuColumns) : Bool := e.lockedAt.isSome

def Request.isMessage : Request → Bool
  | .message _ => true
  | _ => false

structure CashuEscrows (s : State) : Prop where
  escrow : ∀ r ∈ s.orders, r.order.cashu = {} ∨
    r.order.cashu.isLocked = true ∧ r.order.status = .active
  token : ∀ r ∈ s.orders, ∀ r' ∈ s.orders, ∀ t, r.order.cashuEscrowToken = some t →
    r'.order.cashuEscrowToken = some t → r.order.id = r'.order.id

def CashuAt (id : Uuid) (e : CashuColumns) (s : State) : Prop :=
  id < s.nextId ∧ ∀ r ∈ s.orders, r.order.id = id → r.order.cashu = e

inductive CashuOrigin (l : Label) (op : Op) (s : State) (r' : OrderRow) : Prop
  | kept (r : OrderRow) (hr : r ∈ s.orders) (hid : r'.order.id = r.order.id)
      (he : r'.order.cashu = r.order.cashu)
      (hst : r.order.cashu.isLocked = true → r'.order.status = .active)
  | new (hid : r'.order.id = s.nextId) (he : r'.order.cashu = {})
  | locked (r : OrderRow) (mint token : Nat) (t : Int) (expected new : Status) (hr : r ∈ s.orders)
      (hid : r'.order.id = r.order.id) (hreq : l.req.isMessage = true)
      (hop : op = .order (.run (.updateOrderCashuEscrow r.order.id mint token t expected new)))
      (hfree : r.order.cashu.isLocked = false) (he : r'.order.cashu = ⟨some mint,some token,some t⟩)
      (hst : r'.order.status = .active)
      (hunused : ∀ q ∈ s.orders, q.order.cashuEscrowToken = some token → q.order.id = r.order.id)

/-- What a task may do to whole rows: the expiry job writes back orders that it read as not taken
and without an escrow, any other handler writes the escrow that is stored. -/
def CashuPre (l : Label) (op : Op) (s : State) : Prop :=
  match op with
  | .order (.run (.update read row)) =>
    (l.req.isMessage = false ∧ read.status.isListed = true ∧ row.cashu = {}) ∨
      CashuAt row.id row.cashu s ∧ (row.cashu.isLocked = true → row.status = .active)
  | _ => True

/-- The requirement that the expiry job finds each order it writes back in the status in which it
read it. -/
abbrev expiredAsRead : Requirement :=
  .check (fun l op _ _ s => match op with
    | .order (.run (.update read row)) => l.req.isMessage ||
        s.orders.all fun r => r.order.id != row.id || r.order.status == read.status
    | _ => true) fun _ _ _ => true

structure CashuKnowing (cfg : Settings) (l : Label) (op : Op) (ls : List Label) (s : State) :
    Prop extends Knowing l op ls s where
  enabled : l.req.enabled cfg = true

variable {e : CashuColumns}

section

variable {cfg : Settings} {l : Label} {s : State} {Γ : Set Fact}

theorem CashuEscrows.not_locked (h : CashuEscrows s) (hr : r ∈ s.orders)
    (hst : r.order.status ≠ .active) : r.order.cashu = {} :=
  (h.escrow r hr).resolve_right fun hl => hst hl.2

theorem Status.isListed_ne_active {st : Status} (h : st.isListed = true) : st ≠ .active := by
  rintro rfl
  cases h

theorem update_cashu {read row : Order} {ch : Choice} {ls : List Label} (hi : CashuEscrows s)
    (hpre : CashuPre l (.order (.run (.update read row))) s)
    (hd : expiredAsRead.onOp l (.order (.run (.update read row))) ch ls s) (hr : r ∈ s.orders)
    (hid : r.order.id = row.id) :
    row.cashu = r.order.cashu ∧ (r.order.cashu.isLocked = true → row.status = .active) := by
  rcases hpre with ⟨hreq,hread,he⟩ | ⟨hat,hst⟩
  · have hd : (l.req.isMessage || s.orders.all fun r =>
        r.order.id != row.id || r.order.status == read.status) = true := hd
    simp only [hreq,Bool.false_or,List.all_eq_true] at hd
    have hsame : r.order.status = read.status := by simpa [hid] using hd r hr
    have hfree : r.order.cashu = {} :=
      hi.not_locked hr (hsame ▸ Status.isListed_ne_active hread)
    exact ⟨he.trans hfree.symm,by simp [hfree,CashuColumns.isLocked]⟩
  · have he : r.order.cashu = row.cashu := hat.2 r hr hid
    exact ⟨he.symm,fun hl => hst (he ▸ hl)⟩

theorem orderUpdate_cashu {u : OrderUpdate} (hcashu : cfg.cashu = true)
    (henabled : l.req.enabled cfg = true) (hn : u.need l.req Γ) (hsel : u.selects s r = true)
    (hupdate : ∀ read row, u ≠ .update read row)
    (hlock : ∀ id mint token t expected new,
      u ≠ .updateOrderCashuEscrow id mint token t expected new) :
    (u.set r).order.cashu = r.order.cashu ∧
      (r.order.status = .active → (u.set r).order.status = .active) := by
  have hguard := (Bool.and_eq_true_iff.mp hsel).2
  cases u with
  | update read row => exact absurd rfl (hupdate read row)
  | updateOrderCashuEscrow => exact absurd rfl (hlock _ _ _ _ _ _)
  | editPubkeysOrder _ kind => cases kind <;> exact ⟨rfl,fun h => h⟩
  | updateOrderToInitialState read amount fee devFee =>
    have hundoes := hn.2.2.1
    cases hreq : l.req with
    | message m =>
      cases m <;> simp_all [Request.undoesTakes,Request.isCancel,Request.isTimeoutJob,
        Request.enabled,Message.handled]
    | job j => cases j <;> simp_all [Request.undoesTakes,Request.isCancel,Request.isTimeoutJob,
        Request.enabled]
    | _ => simp_all [Request.undoesTakes,Request.isCancel,Request.isTimeoutJob]
  | casPromoteTakerContext o =>
    refine ⟨?_,fun h => ?_⟩
    · simp only [OrderUpdate.set]
      split <;> rfl
    · simp [OrderUpdate.guard,h,pretradeStatuses] at hguard
  | claimOrderStatus id expected new =>
    obtain ⟨rfl,rfl⟩ := hn
    refine ⟨rfl,fun h => ?_⟩
    simp [OrderUpdate.guard,h] at hguard
  | updateOrderInvoiceHeldAtTime | checkFailureRetries | payNewInvoice | claimOrderPayout
  | touchOrderPayoutClaim | clearOrderPayout | failOrderPayout => exact ⟨rfl,fun h => h⟩
  | _ =>
    refine ⟨rfl,fun h => ?_⟩
    simp_all [OrderUpdate.guard,pretradeStatuses]

theorem create_cashu (hcashu : cfg.cashu = true) (henabled : l.req.enabled cfg = true)
    (hn : (OrderStmt.create o).need l.req Γ) : o.cashu = {} := by
  rcases hn.2.2.2.1 with ⟨_,hpub⟩ | ⟨x,sender,next,_,_,_,hreq,_⟩
  · have hmarks : o.marks = {} := hpub.marks
    exact congrArg (fun m : TradeMarks =>
      (⟨m.cashuMintUrl,m.cashuEscrowToken,m.cashuEscrowLockedAt⟩ : CashuColumns)) hmarks
  · rw [hreq] at henabled
    simp [Request.enabled,Message.handled,hcashu] at henabled

theorem locksCashu_isMessage {req : Request} (h : req.locksCashu = true) :
    req.isMessage = true := by
  cases req with
  | message m => rfl
  | _ => cases h

theorem lock_cashu {mint token : Nat} {t : Int} {expected new : Status}
    (hn : (OrderUpdate.updateOrderCashuEscrow id mint token t expected new).need l.req Γ)
    (hr : r ∈ s.orders)
    (hsel : (OrderUpdate.updateOrderCashuEscrow id mint token t expected new).selects s r = true) :
    CashuOrigin l (.order (.run (.updateOrderCashuEscrow id mint token t expected new))) s
      ((OrderUpdate.updateOrderCashuEscrow id mint token t expected new).set r) := by
  obtain ⟨rfl,rfl,hreq⟩ := hn
  simp only [OrderUpdate.selects,OrderUpdate.target,OrderUpdate.guard,Bool.and_eq_true,
    beq_iff_eq,Bool.not_eq_true',List.any_eq_false] at hsel
  obtain ⟨rfl,⟨_,hfree⟩,hunused⟩ := hsel
  refine .locked r mint token t _ _ hr rfl (locksCashu_isMessage hreq) rfl ?_ rfl
    rfl fun q hq ht => ?_
  · simpa [CashuColumns.isLocked,Order.cashu] using hfree
  · simpa [ht] using hunused q hq

variable {ext : Externals} {op : Op} {ch : Choice} {ls : List Label}

theorem exec_cashuOrigin (hcashu : cfg.cashu = true) (hi : CashuEscrows s)
    (hk : CashuKnowing cfg l op ls s) (hpre : CashuPre l op s)
    (hd : expiredAsRead.onOp l op ch ls s) :
    ∀ r' ∈ (exec ext l.tid op ch s).1.orders, CashuOrigin l op s r' := by
  have hsame (r : OrderRow) (hr : r ∈ s.orders) : CashuOrigin l op s r := by
    refine .kept r hr rfl rfl fun hl => ?_
    rcases hi.escrow r hr with he | he
    · simp [he,CashuColumns.isLocked] at hl
    · exact he.2
  obtain ⟨Γ,hn,_⟩ := hk.need
  intro r' hr'
  rcases (exec_effect ext l.tid op ch s).rows with h | ⟨st,rfl,h⟩ | ⟨st,_,h⟩
  · exact hsame r' (h.orders ▸ hr')
  · rw [h] at hr'
    cases st with
    | create o =>
      rcases List.mem_append.mp hr' with hr' | hr'
      · exact hsame r' hr'
      · rw [List.mem_singleton.mp hr']
        exact .new rfl (create_cashu (o := o) hcashu hk.enabled hn)
    | deleteStranded id => exact hsame r' (List.mem_of_mem_filter hr')
    | run u =>
      obtain ⟨r,hr,rfl⟩ := mem_updateWhere.mp hr'
      split
      next hsel =>
        by_cases hlock : ∃ id mint token t expected new,
          u = .updateOrderCashuEscrow id mint token t expected new
        · obtain ⟨id,mint,token,t,expected,new,rfl⟩ := hlock
          exact lock_cashu (Γ := Γ) hn hr hsel
        by_cases hupdate : ∃ read row, u = .update read row
        · obtain ⟨read,row,rfl⟩ := hupdate
          have hid := orderUpdate_id hsel
          obtain ⟨he,hst⟩ := update_cashu hi hpre hd hr hid
          exact .kept r hr hid.symm he hst
        · obtain ⟨he,hst⟩ := orderUpdate_cashu hcashu hk.enabled hn hsel
            (fun read row h => hupdate ⟨read,row,h⟩)
            fun id mint token t expected new h => hlock ⟨id,mint,token,t,expected,new,h⟩
          refine .kept r hr (orderUpdate_set_id hsel) he fun hl => hst ?_
          rcases hi.escrow r hr with hnone | hl'
          · simp [hnone,CashuColumns.isLocked] at hl
          · exact hl'.2
      · exact hsame r hr
  · rw [h,bondStmt_orders] at hr'
    exact hsame r' hr'

theorem CashuAt.exec (h : CashuAt id e s)
    (horigin : ∀ r' ∈ (exec ext l.tid op ch s).1.orders, CashuOrigin l op s r')
    (hlock : e.isLocked = true ∨ l.req.isMessage = false ∨
      ∀ id mint token t expected new,
        op ≠ .order (.run (.updateOrderCashuEscrow id mint token t expected new))) :
    CashuAt id e (exec ext l.tid op ch s).1 := by
  refine ⟨lt_of_lt_of_le h.1 (exec_effect ext l.tid op ch s).nextId_le,fun r' hr' hid => ?_⟩
  cases horigin r' hr' with
  | kept r hr hrid he _ => exact he.trans (h.2 r hr (hrid.symm.trans hid))
  | new hnew _ => exact absurd h.1 (hid ▸ hnew ▸ lt_irrefl _)
  | locked r mint token t expected new hr hrid hreq hop hfree =>
    have he := h.2 r hr (hrid.symm.trans hid)
    rcases hlock with hl | hl | hl
    · rw [he] at hfree
      exact nomatch hl.symm.trans hfree
    · exact nomatch hreq.symm.trans hl
    · exact absurd hop (hl _ _ _ _ _ _)

theorem CashuOrigin.token {r' : OrderRow} {t : Nat} (h : CashuOrigin l op s r')
    (ht : r'.order.cashuEscrowToken = some t) :
    (∃ r ∈ s.orders, r.order.cashuEscrowToken = some t ∧ r'.order.id = r.order.id) ∨
      ∃ mint at_ expected new,
        op = .order (.run (.updateOrderCashuEscrow r'.order.id mint t at_ expected new)) ∧
        ∀ q ∈ s.orders, q.order.cashuEscrowToken = some t → q.order.id = r'.order.id := by
  have hstored {e : CashuColumns} (he : r'.order.cashu = e) : e.token = some t :=
    (congrArg CashuColumns.token he).symm.trans ht
  cases h with
  | kept r hr hid he _ => exact .inl ⟨r,hr,hstored he,hid⟩
  | new _ he => exact nomatch hstored he
  | locked r mint token at_ expected new _ hid _ hop _ he _ hunused =>
    cases hstored he
    rw [← hid] at hop hunused
    exact .inr ⟨mint,at_,expected,new,hop,hunused⟩

theorem CashuEscrows.exec (hi : CashuEscrows s)
    (horigin : ∀ r' ∈ (exec ext l.tid op ch s).1.orders, CashuOrigin l op s r') :
    CashuEscrows (exec ext l.tid op ch s).1 := by
  refine ⟨fun r' hr' => ?_,fun r₁ hr₁ r₂ hr₂ t ht₁ ht₂ => ?_⟩
  · cases horigin r' hr' with
    | kept r hr hid he hst =>
      rw [he]
      exact (hi.escrow r hr).imp_right fun hl => ⟨hl.1,hst hl.1⟩
    | new _ he => exact .inl he
    | locked r mint token t expected new _ _ _ _ _ he hst => exact .inr ⟨by rw [he]; rfl,hst⟩
  · rcases (horigin r₁ hr₁).token ht₁ with ⟨q₁,hq₁,hqt₁,hid₁⟩ | ⟨_,_,_,_,hop₁,hunused₁⟩
    · rw [hid₁]
      rcases (horigin r₂ hr₂).token ht₂ with ⟨q₂,hq₂,hqt₂,hid₂⟩ | ⟨_,_,_,_,_,hunused₂⟩
      · exact hid₂ ▸ hi.token q₁ hq₁ q₂ hq₂ t hqt₁ hqt₂
      · exact hunused₂ q₁ hq₁ hqt₁
    · rcases (horigin r₂ hr₂).token ht₂ with ⟨q₂,hq₂,hqt₂,hid₂⟩ | ⟨_,_,_,_,hop₂,_⟩
      · exact hid₂ ▸ (hunused₁ q₂ hq₂ hqt₂).symm
      · simp only [hop₁,Op.order.injEq,OrderStmt.run.injEq,
          OrderUpdate.updateOrderCashuEscrow.injEq] at hop₂
        exact hop₂.1

end

/-- Between two steps of a task no other one drops a locked escrow, and while a message is handled
none is locked. -/
def cashuContract : Contract State Label Op where
  Binds _ := True
  Rely l s s' := ∀ id e, e.isLocked = true ∨ l.req.isMessage = true →
    CashuAt id e s → CashuAt id e s'
  Known _ _ _ s := Consistent s ∧ CashuEscrows s
  Pre := CashuPre
  Idle _ _ := True

abbrev CashuSat {α : Type} (cfg : Settings) (ext : Externals) (l : Label) (p : M α) (s : State) :
    Prop :=
  (daemon cfg ext).Sat (expiredAsRead.given (CashuKnowing cfg)) cashuContract l p
    (fun _ _ => True) s

def Op.writesCashu : Op → Bool
  | .order (.run (.update _ _)) | .order (.run (.updateOrderCashuEscrow _ _ _ _ _ _)) => true
  | _ => false

section

variable {cfg : Settings} {ext : Externals} {l : Label} {s : State} {α β : Type}
variable {identity sender : Pubkey} {m : TakeMessage}

theorem CashuPre.of_calm {op : Op} (h : op.writesCashu = false) : CashuPre l op s := by
  unfold CashuPre
  split
  · cases h
  · trivial

theorem ask_calm {op : Op} (h : op.writesCashu = false) :
    (ask op).Only fun op => op.writesCashu = false :=
  ask_only h

theorem cashuSat_only {p : M α} (hp : p.Only fun op => op.writesCashu = false) :
    CashuSat cfg ext l p s :=
  System.Sat.of_only (T := fun _ => True) hp trivial (fun _ _ _ _ => trivial)
    fun _ _ _ hop _ _ => ⟨CashuPre.of_calm hop,fun _ _ => trivial⟩

theorem cashuSat_bind {p : M α} {f : α → M β} (hcashu : cfg.cashu = true)
    (hmsg : l.req.isMessage = true) (hp : p.Only fun op => op.writesCashu = false)
    (hs : CashuAt id e s) (hf : ∀ a s, CashuAt id e s → CashuSat cfg ext l (f a) s) :
    CashuSat cfg ext l (p.bind f) s := by
  refine System.Sat.bind (System.Sat.mono (System.Sat.of_only (T := CashuAt id e) hp hs
    (fun s s' hs hr => hr id e (.inr hmsg) hs) fun op ls s hop hs hk => ?_) fun r s hs => ?_)
  · refine ⟨CashuPre.of_calm hop,fun ch hd => ?_⟩
    refine hs.exec (exec_cashuOrigin hcashu hk.2 hd.2 (.of_calm hop) hd.1) (.inr (.inr ?_))
    rintro id mint token t expected new rfl
    cases hop
  · cases r with
    | ok a => exact hf a s hs
    | error e => trivial

theorem cashuSat_updateOrder {read row : Order} (hmsg : l.req.isMessage = true)
    (hs : CashuAt row.id row.cashu s) (hst : row.cashu.isLocked = true → row.status = .active) :
    CashuSat cfg ext l (updateOrder read row) s := by
  refine sat_ask_bind hs (fun _ _ hr hs => hr _ _ (.inr hmsg) hs) fun s ls hs _ => ?_
  exact ⟨.inr ⟨hs,hst⟩,fun _ _ => ⟨fun _ _ => trivial,fun _ _ => trivial⟩⟩

theorem read_cashu (hc : Consistent s) (hi : CashuEscrows s)
    (ho : (Query.orderById id).run s = some o) :
    o.id = id ∧ CashuAt o.id o.cashu s ∧ (o.cashu.isLocked = true → o.status = .active) := by
  obtain ⟨r,hfind,rfl⟩ := Option.map_eq_some_iff.mp ho
  have hr := List.mem_of_find?_eq_some hfind
  refine ⟨by simpa using List.find?_some hfind,⟨hc.orderIds_lt r hr,fun q hq hid => ?_⟩,
    fun hl => ?_⟩
  · rw [hc.order_unique hq hr hid]
  · rcases hi.escrow r hr with he | he
    · simp [he,CashuColumns.isLocked] at hl
    · exact he.2

theorem cashuSat_query_attempt_bind {f : Except MostroError (Option Order) → M β}
    (hf : ∀ o s, CashuAt o.id o.cashu s →
    (o.cashu.isLocked = true → o.status = .active) → o.id = id →
      CashuSat cfg ext l (f (.ok (some o))) s) (hnone : ∀ s, CashuSat cfg ext l (f (.ok none)) s)
    (herr : ∀ e s, CashuSat cfg ext l (f (.error e)) s) :
    CashuSat cfg ext l ((query (.orderById id)).attempt.bind f) s := by
  refine sat_ask_attempt_bind (T := fun _ => True) trivial (fun _ _ _ _ => trivial)
    fun s ls _ hk => ⟨trivial,fun ch _ => ?_⟩
  cases hres : (exec ext l.tid (.query (.orderById id)) ch s).2 with
  | error e => exact herr e _
  | ok found =>
    obtain ⟨hs,hrun⟩ := exec_query_ok hres
    rw [hs]
    cases found with
    | none => exact hnone _
    | some o =>
      obtain ⟨hid,hat,hst⟩ := read_cashu hk.1 hk.2 hrun
      exact hf o _ ⟨hat.1,hat.2⟩ hst hid

theorem cashuSat_getOrder_bind {f : Order → M β}
    (hf : ∀ o s, CashuAt o.id o.cashu s → (o.cashu.isLocked = true → o.status = .active) →
      CashuSat cfg ext l (f o) s) : CashuSat cfg ext l ((getOrder id).bind f) s := by
  unfold getOrder requireOrder query
  rw [Prog.bind_assoc,ask_bind_eq]
  exact cashuSat_query_attempt_bind (fun o s hat hst _ => hf o s hat hst) (fun _ => trivial)
    fun _ _ => trivial

theorem not_locked_of_pretrade (hst : o.cashu.isLocked = true → o.status = .active)
    (h : pretradeStatuses.contains o.status = true) : o.cashu.isLocked ≠ true := by
  intro hl
  rw [hst hl] at h
  cases h

theorem tradePubkeyAction_cashu (hmsg : l.req.isMessage = true) :
    CashuSat cfg ext l (tradePubkeyAction id sender identity) s := by
  refine cashuSat_getOrder_bind fun o s hat hst => sat_ensure_bind (fun hpre => ?_) fun _ => trivial
  have hfree := not_locked_of_pretrade hst hpre
  split
  · refine sat_require_bind (fun _ _ => sat_ensure_bind (fun _ => ?_) fun _ => trivial)
      fun _ => trivial
    exact cashuSat_updateOrder hmsg hat fun hl => absurd hl hfree
  · refine sat_require_bind (fun _ _ => sat_ensure_bind (fun _ => ?_) fun _ => trivial)
      fun _ => trivial
    exact cashuSat_updateOrder hmsg hat fun hl => absurd hl hfree

theorem updateOrderEvent_attempt_eq {st : Status} (f : Except MostroError Order → M β) :
    (updateOrderEvent st o).attempt.bind f = (ask (.updateOrderEvent o.id st)).attempt.bind
      fun r => f (r.map fun _ => { o with status := st }) := by
  refine congrArg (Prog.call _) (funext fun r => ?_)
  cases r <;> rfl

theorem cashuSat_ask_bind {op : Op} {f : op.Out → M β} (h : op.writesCashu = false)
    (hf : ∀ a s, CashuSat cfg ext l (f a) s) : CashuSat cfg ext l ((ask op).bind f) s := by
  refine System.Sat.bind (System.Sat.mono (cashuSat_only (ask_only h)) fun r s _ => ?_)
  cases r with
  | ok a => exact hf a s
  | error e => trivial

theorem addCashuEscrowAction_cashu {proof : CashuLockProof} (hcashu : cfg.cashu = true)
    (hmsg : l.req.isMessage = true) :
    CashuSat cfg ext l (addCashuEscrowAction id sender proof) s := by
  refine cashuSat_getOrder_bind fun o s _ _ => sat_require_bind (fun _ _ => ?_) fun _ => trivial
  refine sat_ensure_bind (fun _ => sat_require_bind (fun _ _ => ?_) fun _ => trivial)
    fun _ => trivial
  split
  · exact cashuSat_only ensure_only
  refine sat_ensure_bind (fun _ => sat_ensure_bind (fun _ => ?_) fun _ => trivial) fun _ => trivial
  refine cashuSat_ask_bind rfl fun used s => sat_ensure_bind (fun _ => ?_) fun _ => trivial
  refine cashuSat_ask_bind rfl fun now s => cashuSat_ask_bind rfl fun _ s => ?_
  refine sat_ask_bind (T := fun _ => True) trivial (fun _ _ _ _ => trivial)
    fun s ls _ hk => ⟨trivial,fun ch _ => ⟨fun locked _ => ?_,fun _ _ => trivial⟩⟩
  split
  · refine cashuSat_ask_bind rfl fun used s => sat_ensure_bind (fun _ => ?_) fun _ => trivial
    exact cashuSat_only ((ask_calm rfl).attempt.bind fun _ => ensure_only)
  -- the row that is published is read after the lock
  · refine cashuSat_query_attempt_bind (fun fresh s hat _ _ => ?_) (fun _ => trivial)
      fun _ _ => trivial
    dsimp only
    rw [Prog.bind_eq,updateOrderEvent_attempt_eq]
    refine cashuSat_bind hcashu hmsg (Prog.Only.attempt (ask_only rfl)) hat fun r s hat => ?_
    cases r with
    | error e => trivial
    | ok _ => exact System.Sat.ignore (cashuSat_updateOrder hmsg hat fun _ => rfl)

theorem checkTake_bind_cashu {kind : Kind} {side : Side} {f : Order → M β}
    (hcashu : cfg.cashu = true) (hmsg : l.req.isMessage = true)
    (hf : ∀ o s, CashuAt o.id o.cashu s → o.cashu.isLocked ≠ true → CashuSat cfg ext l (f o) s) :
    CashuSat cfg ext l ((checkTake m kind side).bind f) s := by
  unfold checkTake
  simp only [Prog.bind_eq,Prog.bind_assoc]
  refine cashuSat_getOrder_bind fun o s hat hst => ?_
  refine cashuSat_bind hcashu hmsg (ask_only rfl) hat fun busy s hat => ?_
  refine sat_ensure_bind (fun _ => sat_ensure_bind (fun _ => ?_) fun _ => trivial) fun _ => trivial
  refine sat_ensure_bind (fun hpre => ?_) fun _ => trivial
  refine cashuSat_bind hcashu hmsg (ask_only rfl) hat fun now s hat => ?_
  refine sat_ensure_bind (fun _ => sat_ensure_bind (fun _ => ?_) fun _ => trivial) fun _ => trivial
  exact hf o s hat (not_locked_of_pretrade hst hpre)

theorem takerBondGate_calm {P : Op → Prop} (hP : ∀ q, P (.query q)) :
    (takerBondGate cfg order sender).Only P := by
  unfold takerBondGate
  split
  · exact (ask_only (hP _)).bind fun _ => ensure_only.bind fun _ => trivial
  · trivial

theorem priceTake_bind_cashu {requested : Option Int} {f : Order → M β} (hcashu : cfg.cashu = true)
    (hmsg : l.req.isMessage = true) (hs : CashuAt order.id order.cashu s)
    (hf : ∀ o s, CashuAt o.id o.cashu s → o.cashu = order.cashu → CashuSat cfg ext l (f o) s) :
    CashuSat cfg ext l ((priceTake ext order requested).bind f) s := by
  unfold priceTake
  refine sat_bind_assoc (sat_require_bind (fun fiat _ => ?_) fun _ => trivial)
  dsimp only
  split
  · refine sat_bind_assoc (cashuSat_bind hcashu hmsg (ask_only rfl) hs fun quote s hs => ?_)
    exact hf _ s hs rfl
  · exact hf _ s hs rfl

theorem showCashuEscrowRequest_cashu {buyer seller : Pubkey} (hcashu : cfg.cashu = true)
    (hmsg : l.req.isMessage = true) (hs : CashuAt order.id order.cashu s)
    (hfree : order.cashu.isLocked ≠ true) :
    CashuSat cfg ext l (showCashuEscrowRequest buyer seller order) s := by
  refine cashuSat_bind hcashu hmsg (ask_only rfl) hs fun claimed s hs => ?_
  refine sat_ensure_bind (fun _ => ?_) fun _ => trivial
  refine sat_bind_assoc (cashuSat_bind hcashu hmsg (ask_only rfl) hs fun _ s hs => ?_)
  exact cashuSat_updateOrder hmsg hs fun hl => absurd hl hfree

theorem requestBond_calm {pubkey : Pubkey} {role : BondRole} {amount : Int}
    {ctx : Option TakerContext} :
    (requestBond order pubkey role amount ctx).Only fun op => op.writesCashu = false := by
  refine (ask_calm rfl).bind fun _ => (ask_calm rfl).bind fun hash => (ask_calm rfl).bind fun now =>
    (ask_calm rfl).bind fun id => (ask_calm rfl).attempt.bind fun r => ?_
  cases r with
  | ok _ => trivial
  | error e =>
    have hrelease (b : Bond) : ReleasesBond (fun op => op.writesCashu = false) b :=
      ⟨rfl,rfl,fun _ _ => rfl,fun _ => rfl⟩
    exact (releaseBond_only (hrelease _)).ignore.bind fun _ => trivial

theorem requestTakerBond_calm {taker : Pubkey} {ctx : TakerContext} :
    (requestTakerBond cfg order taker ctx).Only fun op => op.writesCashu = false := by
  refine require_only.bind fun _ => requestBond_calm.bind fun bond =>
    (ask_calm rfl).attempt.bind fun r => ?_
  split
  · exact (updateOrderEvent_only (P := fun op => op.writesCashu = false) rfl).ignore.bind
      fun _ => trivial
  · trivial

theorem takeSellAction_cashu (hcashu : cfg.cashu = true) (hmsg : l.req.isMessage = true) :
    CashuSat cfg ext l (takeSellAction cfg ext m) s := by
  refine checkTake_bind_cashu hcashu hmsg fun o s hat hfree => ?_
  refine cashuSat_bind hcashu hmsg (takerBondGate_calm fun _ => rfl) hat fun goes s hat => ?_
  split
  · refine sat_require_bind (fun seller _ => ?_) fun _ => trivial
    refine priceTake_bind_cashu hcashu hmsg hat fun priced s hat he => ?_
    refine cashuSat_bind hcashu hmsg (ask_calm rfl) hat fun _ s hat => ?_
    refine cashuSat_bind hcashu hmsg
      (require_only.bind fun _ => (ask_calm rfl).bind fun _ => trivial)
      hat fun index s hat => ?_
    split
    · exact cashuSat_only (requestTakerBond_calm.bind fun _ => trivial)
    · refine sat_bind_assoc (cashuSat_bind hcashu hmsg (ask_calm rfl) hat fun now s hat => ?_)
      exact showCashuEscrowRequest_cashu hcashu hmsg hat (he ▸ hfree)
  · trivial

theorem takeBuyAction_cashu (hcashu : cfg.cashu = true) (hmsg : l.req.isMessage = true) :
    CashuSat cfg ext l (takeBuyAction cfg ext m) s := by
  refine checkTake_bind_cashu hcashu hmsg fun o s hat hfree => ?_
  refine cashuSat_bind hcashu hmsg (takerBondGate_calm fun _ => rfl) hat fun goes s hat => ?_
  split
  · refine priceTake_bind_cashu hcashu hmsg hat fun priced s hat he => ?_
    refine sat_require_bind (fun buyer _ => ?_) fun _ => trivial
    refine cashuSat_bind hcashu hmsg
      (require_only.bind fun _ => (ask_calm rfl).bind fun _ => trivial)
      hat fun index s hat => ?_
    split
    · exact cashuSat_only (requestTakerBond_calm.bind fun _ => trivial)
    · refine sat_bind_assoc (cashuSat_bind hcashu hmsg (ask_calm rfl) hat fun now s hat => ?_)
      exact showCashuEscrowRequest_cashu hcashu hmsg hat (he ▸ hfree)
  · trivial

theorem prepareNewOrder_bind_cashu {new : SmallOrder} {initiator trade : Pubkey}
    {tradeIndex : Option Int} {f : Order → M β}
    (hf : ∀ o s, o.cashu = {} → CashuSat cfg ext l (f o) s) :
    CashuSat cfg ext l
      ((prepareNewOrder ext new initiator identity trade tradeIndex).bind f) s := by
  refine sat_bind_assoc (sat_require_bind (fun kind _ => ?_) fun _ => trivial)
  refine sat_bind_assoc (cashuSat_ask_bind rfl fun now s => hf _ s ?_)
  cases kind <;> rfl

theorem cashuSat_create_bind {f : Nat → M β} (he : o.cashu = {})
    (hf : ∀ id s, CashuAt id {} s → CashuSat cfg ext l (f id) s) :
    CashuSat cfg ext l ((execOrder (.create o)).bind f) s := by
  refine sat_ask_bind (T := fun _ => True) trivial (fun _ _ _ _ => trivial)
    fun s ls _ hk => ⟨trivial,fun ch _ => ⟨fun id hres => ?_,fun _ _ => trivial⟩⟩
  obtain ⟨hs,hid⟩ := exec_order_ok hres
  rw [hs]
  refine hf id _ ⟨?_,fun r hr hrid => ?_⟩
  · exact hid ▸ Nat.lt_succ_self s.nextId
  · rcases List.mem_append.mp hr with hr | hr
    · exact absurd (hk.1.orderIds_lt r hr) (by rw [hrid,← hid]; exact lt_irrefl s.nextId)
    · rw [List.mem_singleton.mp hr]
      exact he

theorem publishOrder_cashu {new : SmallOrder} {initiator trade : Pubkey} {tradeIndex : Option Int}
    (hcashu : cfg.cashu = true) (hmsg : l.req.isMessage = true) :
    CashuSat cfg ext l (publishOrder cfg ext new initiator identity trade tradeIndex) s := by
  refine prepareNewOrder_bind_cashu fun o s he => ?_
  split
  · refine cashuSat_only (Prog.Only.bind ?_ fun notional => (ask_calm rfl).bind fun id => ?_)
    · unfold makerBondNotionalSats
      split
      · exact require_only.bind fun _ => (ask_calm rfl).bind fun _ => trivial
      · split
        · trivial
        · exact (ask_calm rfl).bind fun _ => trivial
    · refine Prog.Only.bind (require_only.bind fun _ => requestBond_calm).attempt fun r => ?_
      cases r with
      | ok _ => trivial
      | error e => exact (ask_calm rfl).ignore.bind fun _ => trivial
  · refine cashuSat_create_bind he fun id s hat => ?_
    refine cashuSat_bind hcashu hmsg (ask_calm rfl) hat fun _ s hat => ?_
    have hwrite : CashuSat cfg ext l
        (updateOrder { o with id } { o with id, status := .pending }) s := by
      refine cashuSat_updateOrder hmsg (show CashuAt id o.cashu s from he ▸ hat) fun hl => ?_
      have hl : o.cashu.isLocked = true := hl
      simp [he,CashuColumns.isLocked] at hl
    refine System.Sat.bind (System.Sat.mono hwrite fun r s _ => ?_)
    cases r with
    | ok _ => exact cashuSat_only ((ask_calm rfl).bind fun _ => trivial)
    | error e => trivial

def Op.expires : Op → Prop
  | .order (.run (.update read row)) => read.status.isListed = true ∧ row.cashu = {}
  | _ => True

theorem expireOrder_expires (hcashu : cfg.cashu = true) (hl : order.status.isListed = true)
    (he : order.cashu = {}) : (expireOrder cfg order).Only Op.expires := by
  have hno {p : M Unit} : (Prog.when (!cfg.cashu) p).Only Op.expires := by
    rw [hcashu]
    trivial
  unfold expireOrder
  split
  · exact (updateOrder_only ⟨hl,he⟩).bind fun _ => hno
  · refine updateOrderEvent_bind_only trivial ?_
    exact (updateOrder_only ⟨hl,he⟩).bind fun _ => hno

theorem jobExpirePendingOlderOrders_cashu (hcashu : cfg.cashu = true)
    (hjob : l.req.isMessage = false) :
    CashuSat cfg ext l (jobExpirePendingOlderOrders cfg) s := by
  refine cashuSat_ask_bind rfl fun now s => sat_ask_bind (T := fun _ => True) trivial
    (fun _ _ _ _ => trivial) fun s ls _ hk => ⟨trivial,fun ch _ => ⟨fun older hres => ?_,
      fun _ _ => trivial⟩⟩
  obtain ⟨_,hrun⟩ := exec_query_ok hres
  refine System.Sat.forEach (P := fun _ => True) trivial fun o ho s' _ => System.Sat.ignore ?_
  obtain ⟨r,hr,rfl⟩ := List.mem_map.mp (hrun ▸ ho)
  obtain ⟨hr,hold⟩ := List.mem_filter.mp hr
  have hl : r.order.status.isListed = true := by
    simp only [Bool.and_eq_true] at hold
    revert hold
    cases r.order.status <;> simp [Status.isListed]
  have he := hk.2.not_locked hr (Status.isListed_ne_active hl)
  refine System.Sat.of_only (T := fun _ => True) (expireOrder_expires hcashu hl he) trivial
    (fun _ _ _ _ => trivial) fun op ls s hop _ _ => ⟨?_,fun _ _ => trivial⟩
  show CashuPre l op s
  unfold CashuPre
  split
  · exact .inl ⟨hjob,hop⟩
  · trivial

theorem coexist_isMessage {l l' : Label} (h : l.coexist l' = true) (hl' : l'.req.isMessage = true) :
    l.req.isMessage = false := by
  obtain ⟨tid,req⟩ := l
  obtain ⟨tid',req'⟩ := l'
  cases req with
  | message m =>
    cases req' with
    | message m' => simp [Label.coexist,Request.exclusive] at h
    | _ => cases hl'
  | _ => rfl

theorem CashuAt.of_orders {s s' : State} (h : CashuAt id e s) (ho : s'.orders = s.orders)
    (hn : s.nextId ≤ s'.nextId) : CashuAt id e s' :=
  ⟨lt_of_lt_of_le h.1 hn,ho ▸ h.2⟩

theorem CashuEscrows.of_orders {s s' : State} (h : CashuEscrows s) (ho : s'.orders = s.orders) :
    CashuEscrows s' :=
  ⟨ho ▸ h.escrow,ho ▸ h.token⟩

theorem request_cashu (hcashu : cfg.cashu = true) (henabled : l.req.enabled cfg = true) :
    CashuSat cfg ext l (l.req.code cfg ext) s := by
  obtain ⟨tid,req⟩ := l
  cases req with
  | message m =>
    cases m with
    | newOrder => exact publishOrder_cashu hcashu rfl
    | takeSell => exact takeSellAction_cashu hcashu rfl
    | takeBuy => exact takeBuyAction_cashu hcashu rfl
    | tradePubkey => exact tradePubkeyAction_cashu rfl
    | addCashuEscrow => exact addCashuEscrowAction_cashu hcashu rfl
    | _ => simp [Request.enabled,Message.handled,hcashu] at henabled
  | job j =>
    cases j with
    | expirePendingOlderOrders => exact jobExpirePendingOlderOrders_cashu hcashu rfl
    | _ => simp [Request.enabled,hcashu] at henabled
  | _ => simp [Request.enabled,hcashu] at henabled

theorem cashuContract_keeps (hcashu : cfg.cashu = true) :
    System.Keeps (daemon cfg ext) (expiredAsRead.given (CashuKnowing cfg)) cashuContract
      State.Initial where
  rely_refl _ _ _ _ _ := id
  rely_trans _ _ _ _ h h' id e hl hat := h' id e hl (h id e hl hat)
  distinct l := by simp [daemon,Label.coexist]
  init _ _ _ _ := trivial
  start l s s' hl l' _ _ := by
    have hk := launch_rowsKept hl
    exact ⟨fun id e _ hat => hat.of_orders hk.orders hk.nextId,fun _ => trivial⟩
  code l s s' _ _ hl := request_cashu hcashu (launch_enabled hl)
  other l l' op ch ls s hco _ _ _ hk hpre hd id e hl hat := by
    refine hat.exec (exec_cashuOrigin hcashu hk.2 hd.2 (hpre trivial) hd.1) ?_
    exact hl.imp_right fun hm => .inl (coexist_isMessage hco hm)
  idle _ _ _ _ _ _ _ _ _ _ _ := trivial
  env e ls s s' _ he := by
    have hk := (env_moves he).rowsKept
    exact ⟨fun _ l _ => ⟨fun _ id e _ hat => hat.of_orders hk.orders hk.nextId,fun _ => trivial⟩,
      fun _ _ _ => trivial⟩

theorem cashu_reach (hext : ext.Documented) (hcashu : cfg.cashu = true) {c : DaemonState}
    (hc : (daemon cfg ext).Reach expiredAsRead State.Initial c) :
    Consistent c.shared ∧ CashuEscrows c.shared ∧
      ∀ l op, c.AboutTo l op →
        CashuPre l op c.shared ∧ CashuKnowing cfg l op c.running c.shared := by
  have hknowing (c : DaemonState) (hc : (daemon cfg ext).Reach expiredAsRead State.Initial c)
      (l : Label) (op : Op) (hnext : c.AboutTo l op) :
      CashuKnowing cfg l op c.running c.shared :=
    ⟨reach_knowing hext hc hnext,reach_enabled hc l (System.running_of_aboutTo hnext)⟩
  have hkeeps : System.Keeps (daemon cfg ext) (expiredAsRead.given (CashuKnowing cfg)) cashuContract
    State.Initial := cashuContract_keeps hcashu
  have hinv (c : DaemonState)
      (hc : (daemon cfg ext).Reach (expiredAsRead.given (CashuKnowing cfg)) State.Initial c) :
      Consistent c.shared ∧ CashuEscrows c.shared := by
    refine (hkeeps.invariant (I := fun s => Consistent s ∧ CashuEscrows s) (fun _ => trivial)
      (fun _ _ _ _ h => h) (fun s hs => ?_) (fun l s s' hl h => ?_)
      (fun l op ch ls s hpre hd h => ?_)
      (fun e ls s s' _ he h => ?_) hc).1
    · obtain ⟨now,height,rfl⟩ := hs
      exact ⟨initial_consistent ⟨now,height,rfl⟩,by simp,by simp⟩
    · have hk := launch_rowsKept hl
      exact ⟨hk.consistent h.1,h.2.of_orders hk.orders⟩
    · obtain ⟨Γ,hn,hΓ⟩ := hd.2.need
      exact ⟨consistent_effect h.1 hn hΓ (exec_effect ext l.tid op ch s),
        h.2.exec (exec_cashuOrigin hcashu h.2 hd.2 hpre hd.1)⟩
    · have hk := (env_moves he).rowsKept
      exact ⟨hk.consistent h.1,h.2.of_orders hk.orders⟩
  have hgiven := System.Reach.given hknowing hc
  exact ⟨(hinv c hgiven).1,(hinv c hgiven).2,fun l op hnext =>
    ⟨hkeeps.pre (fun c hc _ _ _ => hinv c hc) hgiven hnext trivial,hknowing c hc l op hnext⟩⟩

def CashuStored (id : Uuid) (e : CashuColumns) (s : State) : Prop :=
  CashuAt id e s ∧ ∃ r ∈ s.orders, r.order.id = id

theorem CashuStored.exec {op : Op} {ch : Choice} {ls : List Label} (hcashu : cfg.cashu = true)
    (hl : e.isLocked = true) (hi : CashuEscrows s) (hk : CashuKnowing cfg l op ls s)
    (hpre : CashuPre l op s) (hd : expiredAsRead.onOp l op ch ls s) (h : CashuStored id e s) :
    CashuStored id e (exec ext l.tid op ch s).1 := by
  obtain ⟨hat,r,hr,hid⟩ := h
  refine ⟨hat.exec (exec_cashuOrigin hcashu hi hk hpre hd) (.inl hl),?_⟩
  have hactive : r.order.status = .active := by
    refine (hi.escrow r hr).elim (fun he => ?_) And.right
    rw [← hat.2 r hr hid,he] at hl
    cases hl
  rcases (exec_effect ext l.tid op ch s).rows with h | ⟨st,rfl,h⟩ | ⟨st,_,h⟩
  · exact ⟨r,h.orders ▸ hr,hid⟩
  · rw [h]
    cases st with
    | create o => exact ⟨r,List.mem_append_left _ hr,hid⟩
    | deleteStranded x => exact ⟨r,List.mem_filter.mpr ⟨hr,by simp [State.deletable,hactive]⟩,hid⟩
    | run u =>
      refine ⟨_,mem_updateWhere.mpr ⟨r,hr,rfl⟩,?_⟩
      split
      next hsel => exact (orderUpdate_set_id hsel).trans hid
      · exact hid
  · rw [h,bondStmt_orders]
    exact ⟨r,hr,hid⟩

theorem CashuStored.run (hext : ext.Documented) (hcashu : cfg.cashu = true) (hl : e.isLocked = true)
    {c c' : DaemonState} (hc : (daemon cfg ext).Reach expiredAsRead State.Initial c)
    (hr : (daemon cfg ext).Run expiredAsRead c c') (h : CashuStored id e c.shared) :
    CashuStored id e c'.shared := by
  induction hr with
  | refl => exact h
  | @step c₁ c₂ ev hrun hm hs ih =>
    obtain ⟨_,hi,hnext⟩ := cashu_reach hext hcashu (hc.run hrun)
    have hkept (hk : RowsKept c₁.shared c₂.shared) : CashuStored id e c₂.shared :=
      ⟨ih.1.of_orders hk.orders hk.nextId,hk.orders ▸ ih.2⟩
    rcases System.step_shared hm hs with ⟨l,hlaunch⟩ | ⟨l,op,ch,hab,hd,hexec⟩ | ⟨e,_,he⟩
    · exact hkept (launch_rowsKept hlaunch)
    · rw [hexec]
      exact ih.exec hcashu hl hi (hnext l op hab).2 (hnext l op hab).1 hd
    · exact hkept (env_moves he).rowsKept

/-- Where the expiry job finds each order it writes back in the status in which it read it, a token
is stored on one order at most, and once an escrow is locked its mint, token and lock time stay, the
order stays active, and no further submission locks it. -/
theorem locked_cashu_escrow_kept (hext : ext.Documented) (hcashu : cfg.cashu = true)
    {c c' : DaemonState} (hc : (daemon cfg ext).Reach expiredAsRead State.Initial c)
    (hr : (daemon cfg ext).Run expiredAsRead c c') :
    (∀ r₁ ∈ c.shared.orders, ∀ r₂ ∈ c.shared.orders, ∀ token,
      r₁.order.cashuEscrowToken = some token → r₂.order.cashuEscrowToken = some token → r₁ = r₂) ∧
    ∀ r ∈ c.shared.orders, r.order.cashuEscrowLockedAt.isSome = true →
      (∃ r' ∈ c'.shared.orders, r'.order.id = r.order.id ∧ r'.order.cashu = r.order.cashu ∧
        r'.order.status ∉ [Status.pending,.waitingPayment,.expired]) ∧
      ∀ mint token lockedAt, affected
        ((OrderUpdate.updateOrderCashuEscrow r.order.id mint token lockedAt .waitingPayment
          .active).selects c'.shared) c'.shared.orders = 0 := by
  obtain ⟨hcons,hi,_⟩ := cashu_reach hext hcashu hc
  obtain ⟨_,hi',_⟩ := cashu_reach hext hcashu (hc.run hr)
  refine ⟨fun r₁ hr₁ r₂ hr₂ t ht₁ ht₂ =>
    hcons.order_unique hr₁ hr₂ (hi.token r₁ hr₁ r₂ hr₂ t ht₁ ht₂),fun r hmem hl => ?_⟩
  have hl : r.order.cashu.isLocked = true := hl
  have hstored : CashuStored r.order.id r.order.cashu c.shared := by
    refine ⟨⟨hcons.orderIds_lt r hmem,fun q hq hid => ?_⟩,r,hmem,rfl⟩
    rw [hcons.order_unique hq hmem hid]
  obtain ⟨hat,r',hr',hid⟩ := hstored.run hext hcashu hl hc hr
  have he := hat.2 r' hr' hid
  refine ⟨⟨r',hr',hid,he,?_⟩,fun mint token t => List.countP_eq_zero.mpr fun q hq hsel => ?_⟩
  · rcases hi'.escrow r' hr' with hnone | ⟨_,hactive⟩
    · rw [← he,hnone] at hl
      cases hl
    · simp [hactive]
  · simp only [OrderUpdate.selects,OrderUpdate.target,OrderUpdate.guard,Bool.and_eq_true,
      beq_iff_eq] at hsel
    have hq' : q.order.cashuEscrowLockedAt = r.order.cashuEscrowLockedAt :=
      congrArg CashuColumns.lockedAt (hat.2 q hq hsel.1)
    rw [hq'] at hsel
    simp [CashuColumns.isLocked,Order.cashu,Option.isNone_iff_eq_none.mp hsel.2.1.2] at hl

end

def cashuSettings : Settings := { plainSettings with cashu := true }

def shortOffer : Request :=
  .message (.newOrder ⟨some .sell,5000,100,none,none,none,100⟩ 7 7 7 none)

def isLockedWith (token : Nat) (s : State) (id : Uuid) : Bool :=
  s.orders.any fun r => r.order.id == id && r.order.cashuEscrowToken == some token
    && r.order.cashuEscrowLockedAt.isSome

theorem isLockedWith_iff {token : Nat} {s : State} :
    isLockedWith token s id = true ↔ ∃ r ∈ s.orders, r.order.id = id ∧
      r.order.cashuEscrowToken = some token ∧ r.order.cashuEscrowLockedAt.isSome = true := by
  simp [isLockedWith,and_assoc]

theorem locked_escrow_outlives_expiry :
    ∃ c c' r r', (daemon cashuSettings plainExternals).Reach expiredAsRead State.Initial c ∧
      (daemon cashuSettings plainExternals).Run expiredAsRead c c' ∧
      r ∈ c.shared.orders ∧ r.order.cashuEscrowToken = some 70 ∧
      (∃ q ∈ c'.shared.orders, q.order.status = .expired) ∧
      r' ∈ c'.shared.orders ∧ r'.order.id = r.order.id ∧ r'.order.cashu = r.order.cashu := by
  obtain ⟨c,c',hc,hrun,hlocked,hexpired⟩ := run_of_schedules cashuSettings plainExternals
    expiredAsRead (alone 0 shortOffer 5 ++ alone 2 (.message (.takeSell ⟨1,8,8,none,none,none⟩)) 9
      ++ alone 3 (.message (.addCashuEscrow 1 7 ⟨60,70⟩)) 8 ++ alone 4 shortOffer 5)
    (.env (.tick 200) :: alone 6 (.job .expirePendingOlderOrders) 4)
    (fun s => isLockedWith 70 s 1 = true) (fun s => ∃ q ∈ s.orders, q.order.status = .expired)
    (by decide +kernel)
  obtain ⟨r,hr,_,ht,hl⟩ := isLockedWith_iff.mp hlocked
  obtain ⟨r',hr',hid,he,_⟩ :=
    ((locked_cashu_escrow_kept plainExternals_documented rfl hc hrun).2 r hr hl).1
  exact ⟨c,c',r,r',hc,hrun,hr,ht,hexpired,hr',hid,he⟩

/-- The order expires while a take of it is under way: the expiry job reads it as pending, the take
and the lock of the escrow come next, and then the job writes its copy back. -/
theorem locked_escrow_expired :
    ∃ c c' r r', (daemon cashuSettings plainExternals).Reach System.Demand.none State.Initial c ∧
      (daemon cashuSettings plainExternals).Run System.Demand.none c c' ∧
      r ∈ c.shared.orders ∧ r.order.cashuEscrowLockedAt.isSome = true ∧
      r' ∈ c'.shared.orders ∧ r'.order.id = r.order.id ∧ r'.order.status = .expired ∧
      r'.order.cashuEscrowToken = none ∧ r'.order.cashuEscrowLockedAt = none := by
  obtain ⟨c,c',hc,hrun,hlocked,r',hr',hid',hrest⟩ := run_of_schedules cashuSettings plainExternals
    System.Demand.none
    (alone 0 shortOffer 5 ++ alone 2 (.message (.takeSell ⟨1,8,8,none,none,none⟩)) 3
      ++ .env (.tick 200) :: .start ⟨3,.job .expirePendingOlderOrders⟩ :: steps 1 2 ++ steps 0 6
      ++ .start ⟨4,.message (.addCashuEscrow 1 7 ⟨60,70⟩)⟩ :: steps 1 8) (steps 0 2)
    (fun s => isLockedWith 70 s 1 = true)
    (fun s => ∃ r ∈ s.orders, r.order.id = 1 ∧ r.order.status = .expired ∧
      r.order.cashuEscrowToken = none ∧ r.order.cashuEscrowLockedAt = none) (by decide +kernel)
  obtain ⟨r,hr,hid,_,hl⟩ := isLockedWith_iff.mp hlocked
  exact ⟨c,c',r,r',hc,hrun,hr,hl,hr',hid'.trans hid.symm,hrest⟩

end Mostro
