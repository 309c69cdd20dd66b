import Mostro.HandlerKnowledge

set_option autoImplicit false

/-!
What one step can do: which tables an operation leaves alone, how a hold invoice moves, that ids
are never used twice, and that what an operation teaches is true when it is learnt.
-/

namespace Mostro

open Interleaving SqlTable

variable {s' : State} {h x : Hash} {f : Fact} {st : OrderStmt} {texts : LndTexts} {op : Op}
variable {e : Env}

structure Hold.Becomes (i j : Hold) : Prop where
  hash : j.hash = i.hash
  memo : j.memo = i.memo
  amount : j.amount = i.amount
  paid : i.paid = true → j.paid = true
  final : i.state = .settled ∨ i.state = .canceled → j = i

theorem Hold.Becomes.rfl {i : Hold} : i.Becomes i :=
  ⟨.refl _,.refl _,.refl _,id,fun _ => .refl _⟩

theorem Hold.Becomes.trans {i j k : Hold} (h : i.Becomes j) (h' : j.Becomes k) : i.Becomes k where
  hash := h'.hash.trans h.hash
  memo := h'.memo.trans h.memo
  amount := h'.amount.trans h.amount
  paid := fun hp => h'.paid (h.paid hp)
  final hst := by
    have hj := h.final hst
    exact (h'.final (hj ▸ hst)).trans hj

def HoldsProgress (s s' : State) : Prop :=
  ∀ h i, s.hold? h = some i → ∃ j, s'.hold? h = some j ∧ i.Becomes j

theorem HoldsProgress.trans {s₁ s₂ s₃ : State} (h : HoldsProgress s₁ s₂)
    (h' : HoldsProgress s₂ s₃) : HoldsProgress s₁ s₃ := by
  intro x i hi
  obtain ⟨j,hj,hb⟩ := h x i hi
  obtain ⟨k,hk,hb'⟩ := h' x j hj
  exact ⟨k,hk,hb.trans hb'⟩

theorem HoldsProgress.of_eq {s : State} (h : s'.holds = s.holds) : HoldsProgress s s' := by
  intro x i hi
  refine ⟨i,?_,.rfl⟩
  rwa [State.hold?,h]

theorem hold?_setHold {s : State} {f : Hold → Hold} (hf : ∀ i, (f i).hash = i.hash) (x : Hash) :
    (s.setHold h f).hold? x = if x = h then (s.hold? h).map f else s.hold? x := by
  have hkey : ((fun i : Hold => i.hash == x) ∘ fun r => if (r.hash == h) = true then f r else r)
      = fun i => i.hash == x := by
    funext r
    simp only [Function.comp]
    split <;> simp [hf]
  simp only [State.hold?,State.setHold,updateWhere,List.find?_map,hkey]
  by_cases hx : x = h
  · subst hx
    cases hfind : s.holds.find? (·.hash == x) with
    | none => simp
    | some r =>
      have : r.hash = x := by simpa using List.find?_some hfind
      simp [this]
  · rw [if_neg hx]
    cases hfind : s.holds.find? (·.hash == x) with
    | none => simp
    | some r =>
      have : r.hash = x := by simpa using List.find?_some hfind
      simp [this,hx]

theorem HoldsProgress.setHold {s : State} {f : Hold → Hold}
    (hf : ∀ i, s.hold? h = some i → i.Becomes (f i)) (hh : ∀ i, (f i).hash = i.hash) :
    HoldsProgress s (s.setHold h f) := by
  intro x i hi
  rw [hold?_setHold hh]
  by_cases hx : x = h
  · subst hx
    exact ⟨f i,by simp [hi],hf i hi⟩
  · exact ⟨i,by simp [hx,hi],.rfl⟩

theorem holdState_eq_some {s : State} {st : HoldState} :
    s.holdState h = some st ↔ ∃ i, s.hold? h = some i ∧ i.state = st := by
  simp [State.holdState]

theorem hold?_moveHold {s : State} {st : HoldState} (x : Hash) :
    (s.moveHold h st).hold? x
      = if x = h then (s.hold? h).map fun i => { i with state := st } else s.hold? x := by
  unfold State.moveHold
  exact hold?_setHold (fun i => by rfl) x

theorem holdState_moveHold {s : State} {st : HoldState} (x : Hash) :
    (s.moveHold h st).holdState x
      = if x = h then (s.hold? h).map fun _ => st else s.holdState x := by
  rw [State.holdState,hold?_moveHold]
  by_cases hx : x = h
  · cases hi : s.hold? h <;> simp [hx]
  · simp [hx,State.holdState]

theorem hold?_capture {s : State} (x : Hash) :
    (s.capture h).hold? x
      = if x = h then (s.hold? h).map fun i => { i with state := .settled } else s.hold? x :=
  hold?_moveHold x

theorem holdState_capture {s : State} (x : Hash) :
    (s.capture h).holdState x =
      if x = h then (s.hold? h).map fun _ => .settled else s.holdState x :=
  holdState_moveHold x

theorem HoldsProgress.holdState {s : State} (hp : HoldsProgress s s') {st : HoldState}
    (hst : st = .settled ∨ st = .canceled) (h0 : s.holdState h = some st) :
    s'.holdState h = some st := by
  obtain ⟨i,hi,rfl⟩ := holdState_eq_some.mp h0
  obtain ⟨j,hj,hb⟩ := hp h i hi
  exact holdState_eq_some.mpr ⟨j,hj,by rw [hb.final hst]⟩

/-! ### One operation -/

def Quiet (s s' : State) : Prop :=
  ∃ sends, s.sends <:+ sends ∧ s' = { s with sends }

theorem Quiet.refl (s : State) : Quiet s s :=
  ⟨_,List.suffix_rfl,rfl⟩

theorem Quiet.send (s : State) (p : Payee × Hash) : Quiet s { s with sends := p :: s.sends } :=
  ⟨_,List.suffix_cons _ _,rfl⟩

abbrev State.noting (s : State) (tid : Nat) (q : Query) : State :=
  { s with reads := q.logRead tid s ++ s.reads, inHand := q.takeInHand tid s }

inductive Effect (tid : Nat) (op : Op) (s : State) : State → Prop
  | quiet {s' : State} : Quiet s s' → Effect tid op s s'
  | query (q : Query) : op = .query q → Effect tid op s (s.noting tid q)
  | order (st : OrderStmt) : op = .order st → Effect tid op s (st.exec tid s).1
  | bond (st : BondStmt) : op = .bond st → Effect tid op s (st.exec s).1
  | openDispute (d : Dispute) : op = .dispute (.create d) →
      (∀ x ∈ s.disputes, x.orderId ≠ d.orderId) →
      Effect tid op s
        { s with disputes := s.disputes ++ [{ d with id := s.nextId }], nextId := s.nextId + 1 }
  | writeDispute (d : Dispute) : op = .dispute (.update d) →
      Effect tid op s { s with disputes := updateWhere (·.id == d.id) (fun _ => d) s.disputes }
  | publish (id : Uuid) (status : Status) : op = .updateOrderEvent id status →
      Effect tid op s { s with published := (id,status) :: s.published }
  | create (memo : HoldMemo) (amount : Int) : op = .lnd (.createHoldInvoice memo amount) →
      Effect tid op s
        { s with holds := s.holds ++ [{ hash := s.nextId, memo, amount }], nextId := s.nextId + 1 }
  | cancel (h : Hash) : op = .lnd (.cancelHoldInvoice h) →
      s.holdState h = some .opened ∨ s.holdState h = some .accepted →
      Effect tid op s (s.moveHold h .canceled)
  | settle (h : Hash) : op = .lnd (.settleHoldInvoice h) → s.holdState h = some .accepted →
      Effect tid op s (s.capture h)
  | register (payee : Payee) (h : Hash) (stamp : Int) : op = .lnd (.sendPaymentV2 payee h stamp) →
      s.sendRefused h = false →
      Effect tid op s ({ s with sends := (payee,h) :: s.sends }.register payee h)
  | submit (payee : Payee) (h : Hash) (stamp : Int) : op = .lnd (.sendPaymentV2 payee h stamp) →
      Effect tid op s { s with
        sends := (payee,h) :: s.sends, submissions := ⟨h,payee,stamp⟩ :: s.submissions }
  | ask (row : Uuid) (recipient : Pubkey) : op = .askBondInvoice row recipient →
      Effect tid op s { s with invoiceRequests := row :: s.invoiceRequests }
  | spawn (d : Dispatch) : op = .spawn d → Effect tid op s
      { s with spawned := s.spawned ++ [{ d with claim := s.claimNumber d.order.id tid }] }

theorem cancelHold_effect {tid : Nat} {s : State} {ch : Choice} :
    Effect tid (.lnd (.cancelHoldInvoice h)) s (cancelHold texts s h ch).1 := by
  unfold cancelHold
  split
  · exact .quiet (.refl s)
  · exact .quiet (.refl s)
  · exact .quiet (.refl s)
  next hst => exact .cancel h rfl (.inl hst)
  next hst => exact .cancel h rfl (.inr hst)

theorem settleHold_effect {tid : Nat} {s : State} {ch : Choice} :
    Effect tid (.lnd (.settleHoldInvoice h)) s (settleHold texts s h ch).1 := by
  unfold settleHold
  split
  · exact .quiet (.refl s)
  · exact .quiet (.refl s)
  · exact .quiet (.refl s)
  · exact .quiet (.refl s)
  next hst => exact .settle h rfl hst

theorem lndCall_effect {tid : Nat} {ch : Choice} {s : State} (c : LndCall) :
    Effect tid (.lnd c) s (c.exec texts ch s).1 := by
  cases c with
  | createHoldInvoice memo amount =>
    simp only [LndCall.exec]
    split
    · exact .quiet (.refl s)
    · exact .create memo amount rfl
  | cancelHoldInvoice h =>
    simp only [LndCall.exec]
    split
    · exact .quiet (.refl s)
    · exact cancelHold_effect
  | settleHoldInvoice h =>
    simp only [LndCall.exec]
    split
    · exact .quiet (.refl s)
    · exact settleHold_effect
  | sendPaymentV2 payee h stamp =>
    simp only [LndCall.exec]
    split
    · split
      · exact .quiet (.send s _)
      next hr => exact .register payee h stamp rfl (Bool.eq_false_iff.mpr hr)
    · exact .quiet (.send s _)
    · exact .submit payee h stamp rfl
    · exact .quiet (.send s _)
    · exact .submit payee h stamp rfl
  | _ => exact .quiet (.refl s)

theorem exec_effect (ext : Externals) (tid : Nat) (op : Op) (ch : Choice) (s : State) :
    Effect tid op s (exec ext tid op ch s).1 := by
  cases op with
  | query q =>
    simp only [exec,orFault]
    split
    · exact .quiet (.refl s)
    · exact .query q rfl
  | order st =>
    simp only [exec,orFault]
    split
    · exact .quiet (.refl s)
    · exact .order st rfl
  | bond st =>
    simp only [exec,orFault]
    split
    · exact .quiet (.refl s)
    · exact .bond st rfl
  | dispute st =>
    simp only [exec,orFault]
    split
    · exact .quiet (.refl s)
    next hdup =>
      split
      · exact .quiet (.refl s)
      · cases st with
        | create d => exact .openDispute d rfl (by simpa [DisputeStmt.duplicates] using hdup)
        | update d => exact .writeDispute d rfl
  | lnd c => exact lndCall_effect c
  | updateOrderEvent id status =>
    simp only [exec]
    split
    · exact .quiet (.refl s)
    · exact .publish id status rfl
  | askBondInvoice row recipient => exact .ask row recipient rfl
  | spawn d => exact .spawn d rfl
  | _ => exact .quiet (.refl s)

theorem HoldsProgress.cancel {s : State}
    (hst : s.holdState h = some .opened ∨ s.holdState h = some .accepted) :
    HoldsProgress s (s.moveHold h .canceled) := by
  refine HoldsProgress.setHold (fun i hi => ⟨rfl,rfl,rfl,id,fun hfin => ?_⟩) fun _ => rfl
  simp only [State.holdState,hi,Option.map_some,Option.some.injEq] at hst
  rcases hst with hst | hst <;> simp [hst] at hfin

theorem HoldsProgress.settle {s : State} (hst : s.holdState h = some .accepted) :
    HoldsProgress s (s.capture h) := by
  refine HoldsProgress.setHold (fun i hi => ⟨rfl,rfl,rfl,id,fun hfin => ?_⟩) fun _ => rfl
  simp only [State.holdState,hi,Option.map_some,Option.some.injEq] at hst
  simp [hst] at hfin

theorem HoldsProgress.create {s : State} {i : Hold} {n : Nat} :
    HoldsProgress s { s with holds := s.holds ++ [i], nextId := n } := by
  intro x j hj
  refine ⟨j,?_,.rfl⟩
  simp only [State.hold?] at hj ⊢
  simp [hj]

theorem orderStmt_holds (tid : Nat) (s : State) (st : OrderStmt) :
    (st.exec tid s).1.holds = s.holds := by
  cases st <;> rfl

theorem bondStmt_rest {α : Type} (st : BondStmt) (s : State) (f : State → α)
    (hf : ∀ (s : State) bonds nextId slashes closes,
      f { s with bonds, nextId, slashes, closes } = f s := by intros; rfl) :
    f (st.exec s).1 = f s := by
  cases st with
  | create b => exact hf s _ _ s.slashes s.closes
  | run u => exact hf s _ s.nextId _ s.closes
  | insertSliceSlash v =>
    simp only [BondStmt.exec]
    split
    · exact hf s _ _ _ s.closes
    · rfl
  | closeRange v =>
    simp only [BondStmt.exec]
    split
    · exact hf s _ _ s.slashes _
    · rfl

theorem Effect.holdsProgress {tid : Nat} {s : State} (h : Effect tid op s s') :
    HoldsProgress s s' := by
  cases h with
  | quiet hq =>
    obtain ⟨_,_,rfl⟩ := hq
    exact .of_eq rfl
  | order st _ => exact .of_eq (orderStmt_holds tid s st)
  | bond st _ => exact .of_eq (bondStmt_rest st s State.holds)
  | create memo amount _ => exact .create
  | cancel x _ hst => exact .cancel hst
  | settle x _ hst => exact .settle hst
  | _ => exact .of_eq rfl

theorem orderStmt_nextId (tid : Nat) (s : State) (st : OrderStmt) :
    s.nextId ≤ (st.exec tid s).1.nextId := by
  cases st with
  | create o => exact Nat.le_succ _
  | _ => exact le_rfl

theorem bondStmt_nextId (s : State) (st : BondStmt) : s.nextId ≤ (st.exec s).1.nextId := by
  cases st with
  | create b => exact Nat.le_succ _
  | run u => exact le_rfl
  | insertSliceSlash v =>
    simp only [BondStmt.exec]
    split
    · exact Nat.le_succ _
    · exact le_rfl
  | closeRange v =>
    simp only [BondStmt.exec]
    split
    · exact Nat.le_succ _
    · exact le_rfl

theorem Effect.nextId_le {tid : Nat} {s : State} (h : Effect tid op s s') :
    s.nextId ≤ s'.nextId := by
  cases h with
  | quiet hq =>
    obtain ⟨_,_,rfl⟩ := hq
    exact le_rfl
  | order st _ => exact orderStmt_nextId tid s st
  | bond st _ => exact bondStmt_nextId s st
  | openDispute d _ _ => exact Nat.le_succ _
  | create memo amount _ => exact Nat.le_succ _
  | register payee x stamp _ _ => exact Nat.le_succ _
  | _ => exact le_rfl

theorem Effect.hold?_cases {tid : Nat} {s : State} (h : Effect tid op s s') (x : Hash) :
    s'.hold? x = s.hold? x ∨
      (s.hold? x = none ∧ ∃ i, s'.hold? x = some i ∧ i.state = .opened ∧ i.paid = false) ∨
      (op = .lnd (.cancelHoldInvoice x) ∧
        (s.holdState x = some .opened ∨ s.holdState x = some .accepted) ∧
        s'.hold? x = (s.hold? x).map fun i => { i with state := .canceled }) ∨
      (op = .lnd (.settleHoldInvoice x) ∧ s.holdState x = some .accepted ∧
        s'.hold? x = (s.hold? x).map fun i => { i with state := .settled }) := by
  cases h with
  | quiet hq =>
    obtain ⟨_,_,rfl⟩ := hq
    exact .inl rfl
  | order st _ => exact .inl (by simp only [State.hold?,orderStmt_holds])
  | bond st _ => exact .inl (by simp only [State.hold?,bondStmt_rest st s State.holds])
  | create memo amount _ =>
    cases hx : s.hold? x with
    | some i => exact .inl (by simp only [State.hold?] at hx ⊢; simp [hx])
    | none =>
      by_cases hn : x = s.nextId
      · subst hn
        refine .inr (.inl ⟨rfl,⟨s.nextId,memo,amount,.opened,false,0⟩,?_,rfl,rfl⟩)
        simp only [State.hold?] at hx ⊢
        simp [hx]
      · refine .inl ?_
        simp only [State.hold?] at hx ⊢
        simp [hx,Ne.symm hn]
  | cancel y hop hst =>
    by_cases hx : x = y
    · subst hx
      exact .inr (.inr (.inl ⟨hop,hst,by simp [hold?_moveHold]⟩))
    · exact .inl (by simp [hold?_moveHold,hx])
  | settle y hop hst =>
    by_cases hx : x = y
    · subst hx
      exact .inr (.inr (.inr ⟨hop,hst,by simp [hold?_capture]⟩))
    · exact .inl (by simp [hold?_capture,hx])
  | _ => exact .inl rfl

theorem Effect.canceled_from {tid : Nat} {s : State} (h : Effect tid op s s')
    (hx : s'.holdState x = some .canceled) :
    s.holdState x = some .canceled ∨ (op = .lnd (.cancelHoldInvoice x) ∧
      (s.holdState x = some .opened ∨ s.holdState x = some .accepted)) := by
  rcases h.hold?_cases x with he | ⟨_,i,hi,hst,_⟩ | ⟨hop,hst,_⟩ | ⟨_,_,he⟩
  · exact .inl (by rwa [State.holdState,he] at hx)
  · rw [State.holdState,hi] at hx
    simp [hst] at hx
  · exact .inr ⟨hop,hst⟩
  · rw [State.holdState,he] at hx
    simp at hx

theorem Effect.settled_from {tid : Nat} {s : State} (h : Effect tid op s s')
    (hx : s'.holdState x = some .settled) :
    s.holdState x = some .settled ∨
      (op = .lnd (.settleHoldInvoice x) ∧ s.holdState x = some .accepted) := by
  rcases h.hold?_cases x with he | ⟨_,i,hi,hst,_⟩ | ⟨_,_,he⟩ | ⟨hop,hst,_⟩
  · exact .inl (by rwa [State.holdState,he] at hx)
  · rw [State.holdState,hi] at hx
    simp [hst] at hx
  · rw [State.holdState,he] at hx
    simp at hx
  · exact .inr ⟨hop,hst⟩

theorem launch_eq {cfg : Settings} {l : Label} {s : State} (h : l.launch cfg s = some s') :
    ∃ spawned, s' =
      { s with nextId := s.nextId + 1, spawned,
               cancels := l.req.logCancel l.tid ++ s.cancels } := by
  unfold Label.launch at h
  split at h
  · split at h
    next hreq =>
      rw [hreq]
      split at h
      · exact ⟨_,(Option.some.inj h).symm⟩
      · cases h
    · exact ⟨_,(Option.some.inj h).symm⟩
  · cases h

inductive Moves (s : State) : Env → State → Prop
  | tick (seconds : Nat) : Moves s (.tick seconds) { s with now := s.now + seconds }
  | block : Moves s .block { s with height := s.height + 1 }
  | accept (h : Hash) (height : Int) : s.holdState h = some .opened →
      Moves s (.accept h height) (s.setHold h fun i =>
        { i with state := .accepted, paid := true, expiryHeight := height })
  | cancel (h : Hash) : s.holdState h = some .opened ∨ s.holdState h = some .accepted →
      Moves s (.lndCancel h) (s.moveHold h .canceled)
  | refuse (i : Nat) (sub : Submission) : s.submissions[i]? = some sub →
      s.sendRefused sub.hash = true →
      Moves s (.registerSend i) { s with submissions := s.submissions.eraseIdx i }
  | register (i : Nat) (sub : Submission) : s.submissions[i]? = some sub →
      s.sendRefused sub.hash = false →
      Moves s (.registerSend i)
        ({ s with submissions := s.submissions.eraseIdx i }.register sub.payee sub.hash)
  | drop (i : Nat) :
      Moves s (.dropSend i) { s with submissions := s.submissions.eraseIdx i }
  | settle (attempt : Nat) : Moves s (.settlePayment attempt) (s.endPayment attempt .succeeded)
  | fail (attempt : Nat) : Moves s (.failPayment attempt) (s.endPayment attempt .failed)
  | crash : Moves s .crash { s with spawned := [] }

theorem Moves.now_le {s : State} (h : Moves s e s') : s.now ≤ s'.now := by
  cases h with
  | tick seconds => exact Int.le_add_of_nonneg_right (Int.natCast_nonneg _)
  | _ => exact le_rfl

theorem env_moves {s : State} (h : e.move s = some s') : Moves s e s' := by
  cases e with
  | tick seconds => cases h; exact .tick seconds
  | block => cases h; exact .block
  | accept x height =>
    simp only [Env.move] at h
    split at h
    next hst => cases h; exact .accept x height hst
    · cases h
  | lndCancel x =>
    simp only [Env.move] at h
    split at h
    next hst => cases h; exact .cancel x hst
    · cases h
  | registerSend i =>
    simp only [Env.move] at h
    split at h
    · cases h
    next sub hsub =>
      cases h
      split
      next hr => exact .refuse i sub hsub hr
      next hr => exact .register i sub hsub (by simpa using hr)
  | dropSend i => cases h; exact .drop i
  | settlePayment attempt => cases h; exact .settle attempt
  | failPayment attempt => cases h; exact .fail attempt
  | crash => cases h; exact .crash

theorem Moves.hold?_cases {s : State} (h : Moves s e s') (x : Hash) :
    s'.hold? x = s.hold? x ∨
      (∃ height, e = .accept x height ∧ s.holdState x = some .opened ∧
        s'.hold? x = (s.hold? x).map fun i =>
          { i with state := .accepted, paid := true, expiryHeight := height }) ∨
      (e = .lndCancel x ∧ (s.holdState x = some .opened ∨ s.holdState x = some .accepted) ∧
        s'.hold? x = (s.hold? x).map fun i => { i with state := .canceled }) := by
  cases h with
  | accept y height hst =>
    by_cases hx : x = y
    · subst hx
      refine .inr (.inl ⟨height,rfl,hst,?_⟩)
      rw [hold?_setHold (fun i => by rfl),if_pos rfl]
    · exact .inl (by rw [hold?_setHold (fun i => by rfl),if_neg hx])
  | cancel y hst =>
    by_cases hx : x = y
    · subst hx
      exact .inr (.inr ⟨rfl,hst,by simp [hold?_moveHold]⟩)
    · exact .inl (by simp [hold?_moveHold,hx])
  | _ => exact .inl rfl

theorem Moves.canceled_from {s : State} (h : Moves s e s') (hx : s'.holdState x = some .canceled) :
    s.holdState x = some .canceled ∨ (e = .lndCancel x ∧
      (s.holdState x = some .opened ∨ s.holdState x = some .accepted)) := by
  rcases h.hold?_cases x with he | ⟨_,_,_,he⟩ | ⟨hop,hst,_⟩
  · exact .inl (by rwa [State.holdState,he] at hx)
  · rw [State.holdState,he] at hx
    simp at hx
  · exact .inr ⟨hop,hst⟩

theorem Moves.settled_from {s : State} (h : Moves s e s') (hx : s'.holdState x = some .settled) :
    s.holdState x = some .settled := by
  rcases h.hold?_cases x with he | ⟨_,_,_,he⟩ | ⟨_,_,he⟩
  · rwa [State.holdState,he] at hx
  · rw [State.holdState,he] at hx
    simp at hx
  · rw [State.holdState,he] at hx
    simp at hx

section

variable {ext : Externals} {tid : Nat} {ch : Choice} {s : State}

theorem orFault_ok {α : Type} {out : State × α} {a : α} (h : (orFault ch s out).2 = .ok a) :
    orFault ch s out = (out.1,.ok a) ∧ out.2 = a := by
  unfold orFault at h ⊢
  split at h
  · cases h
  next hne => exact ⟨by rw [if_neg hne]; exact Prod.ext rfl h,Except.ok.inj h⟩

theorem exec_query_ok {q : Query} {a : q.Out} (h : (exec ext tid (.query q) ch s).2 = .ok a) :
    (exec ext tid (.query q) ch s).1 = s.noting tid q ∧ q.run s = a :=
  (orFault_ok h).imp_left fun h => congrArg Prod.fst h

theorem exec_order_ok {n : Nat} (h : (exec ext tid (.order st) ch s).2 = .ok n) :
    (exec ext tid (.order st) ch s).1 = (st.exec tid s).1 ∧ (st.exec tid s).2 = n :=
  (orFault_ok h).imp_left fun h => congrArg Prod.fst h

theorem exec_order_error {e : MostroError} (h : (exec ext tid (.order st) ch s).2 = .error e) :
    (exec ext tid (.order st) ch s).1 = s := by
  simp only [exec,orFault] at h ⊢
  split at h
  next hf => rw [if_pos hf]
  · cases h

theorem exec_order_fault {e : MostroError} (h : (exec ext tid (.order st) ch s).2 = .error e) :
    ch = .fault := by
  simp only [exec,orFault] at h
  split at h
  next hf => exact hf
  · cases h

theorem exec_order_of_ne (h : ch ≠ .fault) :
    (exec ext tid (.order st) ch s).1 = (st.exec tid s).1 := by
  simp [exec,orFault,h]

theorem exec_bond_ok {st : BondStmt} {n : Nat} (h : (exec ext tid (.bond st) ch s).2 = .ok n) :
    (exec ext tid (.bond st) ch s).1 = (st.exec s).1 ∧ (st.exec s).2 = n :=
  (orFault_ok h).imp_left fun h => congrArg Prod.fst h

theorem exec_settle_ok {p : Hash} {a : Unit}
    (h : (exec ext tid (.lnd (.settleHoldInvoice p)) ch s).2 = .ok a) :
    (exec ext tid (.lnd (.settleHoldInvoice p)) ch s).1 = s.capture p := by
  simp only [exec,LndCall.exec] at h ⊢
  split at h
  · cases h
  next hne =>
    simp only [if_neg hne]
    unfold settleHold at h ⊢
    split at h <;> first | rfl | cases h

theorem exec_settle_refused {p : Hash} {e : MostroError} (hch : ch ≠ .lost)
    (h : (exec ext tid (.lnd (.settleHoldInvoice p)) ch s).2 = .error e) :
    (exec ext tid (.lnd (.settleHoldInvoice p)) ch s).1 = s := by
  simp only [exec,LndCall.exec] at h ⊢
  split at h
  next hf => rw [if_pos hf]
  next hf =>
    rw [if_neg hf]
    unfold settleHold at h ⊢
    split at h <;> first | rfl | simp [hch] at h

theorem exec_settle_error {p : Hash} {e : MostroError} (ht : ext.texts.Documented)
    (hs : s.holdState p ≠ some .settled)
    (h : (exec ext tid (.lnd (.settleHoldInvoice p)) ch s).2 = .error e) :
    e.alreadySettled = false := by
  simp only [exec,LndCall.exec] at h
  split at h
  · cases h
    exact ht.settleTransport
  · unfold settleHold at h
    split at h
    · cases h; exact ht.settleUnknown
    · cases h; exact ht.settleOpen
    next hst => exact absurd hst hs
    · cases h; exact ht.settleCanceled
    · split at h
      · cases h; exact ht.settleTransport
      · cases h

end

def SameClock (s s' : State) : Prop := s'.now = s.now ∧ s'.reads = s.reads

theorem SameClock.refl (s : State) : SameClock s s := ⟨rfl,rfl⟩

theorem orFault_sameClock {α : Type} {ch : Choice} {s : State} {out : State × α}
    (h : SameClock s out.1) : SameClock s (orFault ch s out).1 := by
  unfold orFault
  split
  · exact .refl s
  · exact h

theorem exec_sameClock (hq : ∀ q, op ≠ .query q) (ext : Externals) (tid : Nat) (ch : Choice)
    (s : State) : SameClock s (exec ext tid op ch s).1 := by
  cases op with
  | query q => exact absurd rfl (hq q)
  | order st => exact orFault_sameClock (by cases st <;> exact ⟨rfl,rfl⟩)
  | bond st =>
    exact orFault_sameClock ⟨bondStmt_rest st s State.now,bondStmt_rest st s State.reads⟩
  | dispute st =>
    simp only [exec]
    split
    · exact .refl s
    · exact orFault_sameClock (by cases st <;> exact ⟨rfl,rfl⟩)
  | lnd c =>
    cases c with
    | createHoldInvoice memo amount => simp only [exec,LndCall.exec]; split <;> exact ⟨rfl,rfl⟩
    | cancelHoldInvoice h =>
      simp only [exec,LndCall.exec]
      split
      · exact .refl s
      · unfold cancelHold
        split <;> exact ⟨rfl,rfl⟩
    | settleHoldInvoice h =>
      simp only [exec,LndCall.exec]
      split
      · exact .refl s
      · unfold settleHold
        split <;> exact ⟨rfl,rfl⟩
    | sendPaymentV2 payee h stamp =>
      simp only [exec,LndCall.exec]
      split
      · split <;> exact ⟨rfl,rfl⟩
      all_goals exact ⟨rfl,rfl⟩
    | _ => exact .refl s
  | updateOrderEvent id status => simp only [exec]; split <;> exact ⟨rfl,rfl⟩
  | _ => exact ⟨rfl,rfl⟩

theorem exec_now (ext : Externals) (tid : Nat) (op : Op) (ch : Choice) (s : State) :
    (exec ext tid op ch s).1.now = s.now := by
  by_cases hq : ∃ q, op = .query q
  · obtain ⟨q,rfl⟩ := hq
    simp only [exec,orFault]
    split <;> rfl
  · exact (exec_sameClock (fun q h => hq ⟨q,h⟩) ext tid ch s).1

structure LogsGrow (s s' : State) : Prop where
  cancels : s'.cancels = s.cancels
  reads : s.reads ⊆ s'.reads
  captures : s.captures ⊆ s'.captures
  sends : s.sends <:+ s'.sends

theorem LogsGrow.of_eq {s : State} (hc : s'.cancels = s.cancels) (hr : s'.reads = s.reads)
    (hk : s'.captures = s.captures) (hs : s'.sends = s.sends) : LogsGrow s s' :=
  ⟨hc,fun _ h => hr ▸ h,fun _ h => hk ▸ h,hs ▸ List.suffix_rfl⟩

theorem Effect.logs {tid : Nat} {s : State} (he : Effect tid op s s') : LogsGrow s s' := by
  cases he with
  | quiet hq =>
    obtain ⟨_,hs,rfl⟩ := hq
    exact ⟨rfl,fun _ h => h,fun _ h => h,hs⟩
  | query q _ =>
    exact ⟨rfl,List.subset_append_right _ _,fun _ h => h,List.suffix_rfl⟩
  | order st _ => cases st <;> exact .of_eq rfl rfl rfl rfl
  | bond st _ =>
    exact .of_eq (bondStmt_rest st s State.cancels) (bondStmt_rest st s State.reads)
      (bondStmt_rest st s State.captures) (bondStmt_rest st s State.sends)
  | settle x _ _ => exact ⟨rfl,fun _ h => h,List.subset_cons_self _ _,List.suffix_rfl⟩
  | register payee x stamp _ _ | submit payee x stamp _ =>
    exact ⟨rfl,fun _ h => h,fun _ h => h,List.suffix_cons _ _⟩
  | _ => exact .of_eq rfl rfl rfl rfl

theorem Moves.logs {s : State} (he : Moves s e s') : LogsGrow s s' := by
  cases he <;> exact .of_eq rfl rfl rfl rfl

/-! ### What an operation teaches -/

def Fact.Seen (s : State) : Fact → Prop
  | .order o => ∃ r ∈ s.orders, r.order = o
  | .bond b => b ∈ s.bonds
  | .parent b => b ∈ s.bonds
  | .created memo h => ∃ i, s.hold? h = some i ∧ i.memo = memo
  | .priced h amount => ∃ i, s.hold? h = some i ∧ i.amount = amount
  | .accepted h => ∃ i, s.hold? h = some i ∧ (i.state = .accepted ∨ i.paid = true)
  | .canceled h => s.holdState h = some .canceled
  | .settled h | .captured h => s.holdState h = some .settled
  | .dispute d => d ∈ s.disputes
  | .claimed id => ∃ r ∈ s.orders, r.order.id = id ∧ r.payoutPaymentHash.isSome = true
  | .resolved _ | .unreset _ | .promoted _ => True

theorem ordersWhere_seen {s : State} {p : OrderRow → Bool} (h : f ∈ ordersRead (s.ordersWhere p)) :
    f.Seen s := by
  obtain ⟨o,ho,rfl⟩ := h
  obtain ⟨r,hr,rfl⟩ := List.mem_map.mp ho
  exact ⟨r,List.mem_of_mem_filter hr,rfl⟩

theorem orderFound_seen {s : State} {p : OrderRow → Bool}
    (h : f ∈ ordersRead ((s.orders.find? p).map (·.order)).toList) : f.Seen s := by
  obtain ⟨o,ho,rfl⟩ := h
  obtain ⟨r,hr,rfl⟩ := Option.map_eq_some_iff.mp (Option.mem_toList.mp ho)
  exact ⟨r,List.mem_of_find?_eq_some hr,rfl⟩

theorem bondFound_seen {s : State} {p : Bond → Bool} (h : f ∈ bondsRead (s.bonds.find? p).toList) :
    f.Seen s := by
  obtain ⟨b,hb,rfl⟩ := h
  exact List.mem_of_find?_eq_some (Option.mem_toList.mp hb)

theorem disputeFound_seen {s : State} {p : Dispute → Bool}
    (h : f ∈ disputesRead (s.disputes.find? p).toList) : f.Seen s := by
  obtain ⟨d,hd,rfl⟩ := h
  exact List.mem_of_find?_eq_some (Option.mem_toList.mp hd)

theorem mem_byCreatedAt {b : Bond} {bs : List Bond} : b ∈ byCreatedAt bs ↔ b ∈ bs := by
  simp [byCreatedAt]

theorem bondsWhere_seen {s : State} {p : Bond → Bool}
    (h : f ∈ bondsRead (byCreatedAt (s.bonds.filter p))) : f.Seen s := by
  obtain ⟨b,hb,rfl⟩ := h
  exact List.mem_of_mem_filter (mem_byCreatedAt.mp hb)

theorem query_learn_seen {s : State} (q : Query) (h : f ∈ q.learn (q.run s)) : f.Seen s := by
  cases q with
  | orderById id => exact orderFound_seen h
  | findOrderByHash hash => exact orderFound_seen h
  | findOrderByDate t => exact ordersWhere_seen h
  | findOrderBySeconds t => exact ordersWhere_seen h
  | findEscrowDeadlineOrders t => exact ordersWhere_seen h
  | findFailedPayment => exact ordersWhere_seen h
  | findHeldInvoices => exact ordersWhere_seen h
  | findInflightPayouts t =>
    obtain ⟨p,hp,rfl⟩ := h
    obtain ⟨r,hr,hout⟩ := List.mem_filterMap.mp hp
    cases hh : r.payoutPaymentHash with
    | none => simp [hh] at hout
    | some hash =>
      rw [hh] at hout
      dsimp only at hout
      split at hout
      · cases hout
        exact ⟨r,hr,rfl,by simp [hh]⟩
      · cases hout
  | findBondById id =>
    cases hb : s.bond? id with
    | none => simp [Query.run,Query.learn,hb] at h
    | some b =>
      simp only [Query.run,Query.learn,hb,Set.mem_singleton_iff] at h
      subst h
      exact List.mem_of_find?_eq_some hb
  | findBondByHash hash => exact bondFound_seen h
  | findBondByOrderAndRole order role => exact bondFound_seen h
  | findSliceSlashChild parent slice => exact bondFound_seen h
  | findBondsByState st => exact bondsWhere_seen h
  | findActiveBondsForOrder order => exact bondsWhere_seen h
  | findChildSlashesForParent parent => exact bondsWhere_seen h
  | findLockedMakerParentBonds => exact bondsWhere_seen h
  | findActiveBondByTaker order pubkey =>
    obtain ⟨b,hb,rfl⟩ := h
    have hb := List.mem_of_mem_head? (Option.mem_toList.mp hb)
    exact List.mem_of_mem_filter (mem_byCreatedAt.mp hb)
  | findRecoverableBonds order =>
    obtain ⟨b,hb,rfl⟩ := h
    have hb := (List.mem_insertionSort _).mp hb
    exact List.mem_of_mem_filter hb
  | findDisputeByOrderId order => exact disputeFound_seen h
  | disputeById id => exact disputeFound_seen h
  | _ => exact h.elim

theorem query_answers {s : State} (q : Query) : q.answers (q.run s) := by
  cases q with
  | orderById id =>
    intro o ho
    obtain ⟨r,hr,rfl⟩ := Option.map_eq_some_iff.mp (Option.mem_toList.mp ho)
    simpa using List.find?_some hr
  | findOrderByHash hash =>
    intro o ho
    obtain ⟨r,hr,rfl⟩ := Option.map_eq_some_iff.mp (Option.mem_toList.mp ho)
    simpa using List.find?_some hr
  | findOrderByDate t =>
    intro o ho
    obtain ⟨r,hr,rfl⟩ := List.mem_map.mp ho
    exact (Bool.and_eq_true_iff.mp (List.mem_filter.mp hr).2).2
  | findFailedPayment =>
    intro o ho
    obtain ⟨r,hr,rfl⟩ := List.mem_map.mp ho
    have hr := (List.mem_filter.mp hr).2
    simp only [Bool.and_eq_true,beq_iff_eq] at hr
    exact ⟨hr.1.2,hr.1.1⟩
  | findBondById id =>
    intro b hb
    simpa using List.find?_some (Option.mem_toList.mp hb)
  | findBondByHash hash =>
    intro b hb
    simpa using List.find?_some (Option.mem_toList.mp hb)
  | findActiveBondsForOrder order =>
    intro b hb
    have hb := (List.mem_filter.mp (mem_byCreatedAt.mp hb)).2
    simpa using hb
  | findDisputeByOrderId order =>
    intro d hd
    simpa using List.find?_some (Option.mem_toList.mp hd)
  | _ => trivial

theorem exec_answers (ext : Externals) (tid : Nat) (op : Op) (ch : Choice) (s : State) :
    op.answers (exec ext tid op ch s).2 := by
  cases op with
  | query q =>
    simp only [exec,orFault]
    split
    · trivial
    · exact query_answers q
  | _ => trivial

theorem cancelConfirmed_seen (ht : texts.Documented) {s : State} {ch : Choice}
    (hk : (s.hold? h).isSome)
    (hc : cancelConfirmed (LndCall.exec texts ch s (.cancelHoldInvoice h)).2) :
    (LndCall.exec texts ch s (.cancelHoldInvoice h)).1.holdState h = some .canceled := by
  obtain ⟨i,hi⟩ := Option.isSome_iff_exists.mp hk
  have hset : (s.moveHold h .canceled).holdState h
      = some .canceled := by simp [holdState_moveHold,hi]
  simp only [LndCall.exec] at hc ⊢
  split at hc
  · simp [cancelConfirmed,MostroError.cancelOutcome,ht.cancelTransport] at hc
  next hne =>
    simp only [if_neg hne]
    unfold cancelHold at hc ⊢
    split at hc
    next hn => simp [State.holdState,hi] at hn
    · simp [cancelConfirmed,MostroError.cancelOutcome,ht.cancelSettled] at hc
    next hst => simpa using hst
    · exact hset
    · exact hset

theorem settleConfirmed_seen (ht : texts.Documented) {s : State} {ch : Choice}
    (hc : settleConfirmed (LndCall.exec texts ch s (.settleHoldInvoice h)).2) :
    (LndCall.exec texts ch s (.settleHoldInvoice h)).1.holdState h = some .settled := by
  simp only [LndCall.exec] at hc ⊢
  split at hc
  · simp [settleConfirmed,MostroError.alreadySettled,ht.settleTransport] at hc
  next hne =>
    simp only [if_neg hne]
    unfold settleHold at hc ⊢
    split at hc
    · simp [settleConfirmed,MostroError.alreadySettled,ht.settleUnknown] at hc
    · simp [settleConfirmed,MostroError.alreadySettled,ht.settleOpen] at hc
    next hst => simpa using hst
    · simp [settleConfirmed,MostroError.alreadySettled,ht.settleCanceled] at hc
    next hst =>
      obtain ⟨i,hi,_⟩ := holdState_eq_some.mp hst
      simp [holdState_capture,hi]

theorem deliveredUpdate_canceled {s : State} {ch : Choice} (hd : s.deliveredUpdate h ch = .canceled) :
    s.holdState h = some .canceled := by
  unfold State.deliveredUpdate at hd
  split at hd
  · cases hd
  next i hi =>
    split at hd
    · exact holdState_eq_some.mpr ⟨i,hi,hd⟩
    · split at hd <;> cases hd

theorem deliveredUpdate_accepted {s : State} {ch : Choice} (hd : s.deliveredUpdate h ch = .accepted) :
    ∃ i, s.hold? h = some i ∧ (i.state = .accepted ∨ i.paid = true) := by
  unfold State.deliveredUpdate at hd
  split at hd
  · cases hd
  next i hi =>
    refine ⟨i,hi,?_⟩
    split at hd
    · exact .inl hd
    · split at hd
      next hp => exact .inr hp
      · cases hd

theorem lndCall_learn_seen (ht : texts.Documented) {ch : Choice} {s : State} (c : LndCall)
    (hn : s.hold? s.nextId = none) (hk : ∀ h, c = .cancelHoldInvoice h → (s.hold? h).isSome)
    (hf : f ∈ c.learn (c.exec texts ch s).2) : f.Seen (c.exec texts ch s).1 := by
  cases c with
  | createHoldInvoice memo amount =>
    by_cases hfault : ch = .fault
    · simp [LndCall.exec,hfault,LndCall.learn] at hf
    · by_cases hlost : ch = .lost
      · simp [LndCall.exec,hlost,LndCall.learn] at hf
      · simp only [LndCall.exec,if_neg hfault,if_neg hlost,LndCall.learn,
          Set.mem_insert_iff,Set.mem_singleton_iff] at hf ⊢
        have hnew : State.hold? { s with
            holds := s.holds ++ [{ hash := s.nextId, memo, amount }], nextId := s.nextId + 1 }
            s.nextId = some { hash := s.nextId, memo, amount } := by
          simp only [State.hold?] at hn ⊢
          simp [hn]
        rcases hf with rfl | rfl <;> exact ⟨_,hnew,rfl⟩
  | cancelHoldInvoice h =>
    obtain ⟨rfl,hc⟩ := hf
    exact cancelConfirmed_seen ht (hk h rfl) hc
  | settleHoldInvoice h =>
    rcases hf with ⟨rfl,hc⟩ | ⟨rfl,hok⟩
    · exact settleConfirmed_seen ht hc
    · exact settleConfirmed_seen ht (hok ▸ trivial)
  | invoiceUpdate h =>
    have hd : (LndCall.invoiceUpdate h).exec texts ch s = (s,.ok (s.deliveredUpdate h ch)) := rfl
    rw [hd] at hf ⊢
    cases hu : s.deliveredUpdate h ch with
    | accepted =>
      rw [hu] at hf
      cases hf
      exact deliveredUpdate_accepted hu
    | canceled =>
      rw [hu] at hf
      cases hf
      exact deliveredUpdate_canceled hu
    | _ =>
      rw [hu] at hf
      exact hf.elim
  | _ => exact hf.elim

def Fact.isOutcome : Fact → Prop
  | .resolved _ | .unreset _ | .claimed _ | .promoted _ => True
  | _ => False

theorem learn_run {u : OrderUpdate} {r : (Op.order (.run u)).Res}
    (h : f ∈ (Op.order (.run u)).learn r) : f.isOutcome := by
  cases r with
  | error e =>
    cases u with
    | updateOrderToInitialState read a fee d =>
      cases h
      trivial
    | _ => exact h.elim
  | ok n =>
    cases u with
    | update | settleFromRelease | settleFromAdmin | touchOrderPayoutClaim
    | casPromoteTakerContext =>
      obtain ⟨rfl,_⟩ := h
      trivial
    | _ => exact h.elim

theorem learn_order {r : (Op.order st).Res} (h : f ∈ (Op.order st).learn r) :
    (∃ o, f = .order o) ∨ f.isOutcome := by
  cases st with
  | create o =>
    cases r with
    | error e => exact h.elim
    | ok n => exact .inl ⟨_,h⟩
  | run u => exact .inr (learn_run h)
  | deleteStranded id => exact h.elim

theorem learn_dispute {st : DisputeStmt} {r : (Op.dispute st).Res} (h : f ∈ (Op.dispute st).learn r) :
    ∃ d, f = .dispute d := by
  cases r with
  | error e => cases st <;> exact h.elim
  | ok n =>
    cases st with
    | create d => exact ⟨_,h⟩
    | update d => exact h.elim

theorem learnt_by_run {r : op.Res} (h : f ∈ op.learn r)
    (hf : ∃ id, f = .resolved id ∨ f = .unreset id ∨ f = .promoted id) :
    ∃ u, op = .order (.run u) := by
  obtain ⟨id,hf⟩ := hf
  cases op with
  | query q =>
    cases r with
    | error e => exact h.elim
    | ok v =>
      cases q with
      | findBondById id =>
        cases v <;> rcases hf with rfl | rfl | rfl <;> simp [Op.learn,Query.learn] at h
      | _ =>
        rcases hf with rfl | rfl | rfl <;>
          simp [Op.learn,Query.learn,ordersRead,bondsRead,disputesRead] at h
  | order st =>
    cases st with
    | create o => cases r <;> rcases hf with rfl | rfl | rfl <;> simp [Op.learn] at h
    | run u => exact ⟨u,rfl⟩
    | deleteStranded x => exact h.elim
  | bond st => cases r <;> cases st <;> rcases hf with rfl | rfl | rfl <;> simp [Op.learn] at h
  | lnd c =>
    simp only [Op.learn,LndCall.learn] at h
    split at h <;> rcases hf with rfl | rfl | rfl <;> simp at h
  | dispute st =>
    obtain ⟨d,rfl⟩ := learn_dispute h
    rcases hf with hf | hf | hf <;> cases hf
  | _ => exact h.elim

theorem exec_learn_bond {ext : Externals} {tid : Nat} {ch : Choice} {s : State} {b : Bond}
    (hf : .bond b ∈ op.learn (exec ext tid op ch s).2) : b ∈ (exec ext tid op ch s).1.bonds := by
  cases op with
  | query q =>
    simp only [exec,orFault] at hf ⊢
    split at hf
    · exact hf.elim
    next hne =>
      rw [if_neg hne]
      exact query_learn_seen q hf
  | bond st =>
    simp only [exec,orFault] at hf ⊢
    split at hf
    · cases st <;> exact hf.elim
    next hne =>
      rw [if_neg hne]
      cases st with
      | create b =>
        cases hf
        simp [BondStmt.exec]
      | _ => exact hf.elim
  | order st =>
    rcases learn_order hf with ⟨_,h⟩ | h
    · cases h
    · exact h.elim
  | lnd c =>
    simp only [Op.learn,LndCall.learn] at hf
    split at hf <;> simp at hf
  | dispute st =>
    obtain ⟨d,hd⟩ := learn_dispute hf
    cases hd
  | _ => exact hf.elim

theorem dispute_learn_seen {ext : Externals} {tid : Nat} {st : DisputeStmt} {ch : Choice}
    {s : State} (hf : f ∈ (Op.dispute st).learn (exec ext tid (.dispute st) ch s).2) :
    f.Seen (exec ext tid (.dispute st) ch s).1 := by
  cases st with
  | create d =>
    simp only [exec,orFault] at hf ⊢
    split at hf
    · exact hf.elim
    next hdup =>
      split at hf
      · exact hf.elim
      next hne =>
        cases hf
        rw [if_neg hdup,if_neg hne]
        exact List.mem_append_right _ (List.mem_singleton.mpr rfl)
  | update d =>
    simp only [exec,orFault] at hf
    split at hf
    · exact hf.elim
    · split at hf <;> exact hf.elim

theorem run_learn_seen {ext : Externals} {tid : Nat} {u : OrderUpdate} {ch : Choice} {s : State}
    (hf : f ∈ (Op.order (.run u)).learn (exec ext tid (.order (.run u)) ch s).2) :
    f.Seen (exec ext tid (.order (.run u)) ch s).1 := by
  have hout := learn_run hf
  cases f with
  | claimed id =>
    simp only [exec,orFault] at hf ⊢
    split at hf
    · cases u with
      | updateOrderToInitialState read a fee d => cases hf
      | _ => exact hf.elim
    next hne =>
      rw [if_neg hne]
      cases u with
      | touchOrderPayoutClaim id hash claimedAt now =>
        obtain ⟨heq,hpos⟩ := hf
        cases heq
        obtain ⟨r,hr,hsel⟩ := affected_pos.mp (Nat.pos_of_ne_zero hpos)
        refine ⟨_,mem_updateWhere.mpr ⟨r,hr,rfl⟩,?_⟩
        rw [if_pos hsel]
        simp [OrderUpdate.selects,OrderUpdate.guard,OrderUpdate.target] at hsel
        exact ⟨hsel.1,by simp [OrderUpdate.set,hsel]⟩
      | update | settleFromRelease | settleFromAdmin | casPromoteTakerContext => cases hf.1
      | _ => exact hf.elim
  | resolved | unreset | promoted => trivial
  | _ => exact hout.elim

theorem exec_learn_seen {ext : Externals} (hext : ext.Documented) {tid : Nat} {ch : Choice}
    {s : State} (hn : s.hold? s.nextId = none)
    (hk : ∀ h, op = .lnd (.cancelHoldInvoice h) → (s.hold? h).isSome)
    (hf : f ∈ op.learn (exec ext tid op ch s).2) : f.Seen (exec ext tid op ch s).1 := by
  cases op with
  | query q =>
    simp only [exec,orFault] at hf ⊢
    split at hf
    · exact hf.elim
    next hne =>
      rw [if_neg hne]
      exact query_learn_seen q hf
  | order st =>
    cases st with
    | create o =>
      simp only [exec,orFault] at hf ⊢
      split at hf
      · exact hf.elim
      next hne =>
        rw [if_neg hne]
        cases hf
        exact ⟨{ order := { o with id := s.nextId } },by simp [OrderStmt.exec],rfl⟩
    | run u => exact run_learn_seen hf
    | deleteStranded id => exact hf.elim
  | bond st =>
    cases st with
    | create b =>
      have hlearn := hf
      simp only [exec,orFault] at hf
      split at hf
      · exact hf.elim
      · cases hf
        exact exec_learn_bond hlearn
    | _ =>
      simp only [exec,orFault] at hf
      split at hf <;> exact hf.elim
  | lnd c =>
    refine lndCall_learn_seen hext.texts c hn (fun h hc => hk h (by rw [hc])) hf
  | dispute st => exact dispute_learn_seen hf
  | _ => exact hf.elim

/-- The hold invoice waits for its payment or holds it. -/
def State.cancelable (s : State) (h : Hash) : Bool :=
  s.holdState h == some .opened || s.holdState h == some .accepted

def Query.mayRead (id : Uuid) : Query → Bool
  | .orderById x => x == id
  | .findOrderByHash _ | .findOrderByDate _ | .findOrderBySeconds _ | .findEscrowDeadlineOrders _
  | .findFailedPayment | .findHeldInvoices => true
  | _ => false

theorem Query.mayRead_of_learn {s : State} {q : Query} {x : Order}
    (h : .order x ∈ q.learn (q.run s)) : q.mayRead x.id = true := by
  cases q with
  | orderById id =>
    have hid := query_answers (s := s) (.orderById id)
    obtain ⟨o,ho,heq⟩ := h
    cases heq
    exact beq_iff_eq.mpr (hid x ho).symm
  | findOrderByHash _ | findOrderByDate _ | findOrderBySeconds _ | findEscrowDeadlineOrders _
  | findFailedPayment | findHeldInvoices => rfl
  | findBondById id =>
    cases hb : s.bond? id <;> simp [Query.run,Query.learn,hb] at h
  | _ => simp [Query.learn,bondsRead,disputesRead] at h

theorem Query.mem_ordersOut (q : Query) {out : q.Out} {x : Order} (h : .order x ∈ q.learn out) :
    x ∈ q.ordersOut out := by
  cases q with
  | findBondById id => cases out <;> simp [Query.learn] at h
  | orderById _ | findOrderByHash _ | findOrderByDate _ | findOrderBySeconds _
  | findEscrowDeadlineOrders _ | findFailedPayment | findHeldInvoices =>
    obtain ⟨o,ho,heq⟩ := h
    cases heq
    exact ho
  | _ => simp [Query.learn,bondsRead,disputesRead] at h

theorem order_learnt {ext : Externals} {tid : Nat} {ch : Choice} {s : State} {x : Order}
    (h : .order x ∈ op.learn (exec ext tid op ch s).2) :
    (∃ q, op = .query q ∧ q.mayRead x.id = true ∧ (tid,x) ∈ (exec ext tid op ch s).1.reads ∧
      ∃ r ∈ s.orders, r.order = x) ∨
    ∃ o, op = .order (.create o) ∧ x = { o with id := x.id } := by
  cases op with
  | query q =>
    simp only [exec,orFault] at h ⊢
    split at h
    · exact h.elim
    next hne =>
      refine .inl ⟨q,rfl,Query.mayRead_of_learn h,?_,query_learn_seen q h⟩
      rw [if_neg hne]
      exact List.mem_append_left _ (List.mem_map.mpr ⟨x,q.mem_ordersOut h,rfl⟩)
  | order st =>
    cases st with
    | create o =>
      simp only [exec,orFault] at h
      split at h
      · exact h.elim
      · cases h
        exact .inr ⟨o,rfl,rfl⟩
    | run u => exact (learn_run h).elim
    | deleteStranded id => exact h.elim
  | bond st =>
    simp only [exec,orFault] at h
    split at h <;> cases st <;> simp [Op.learn] at h
  | lnd c =>
    simp only [Op.learn,LndCall.learn] at h
    split at h <;> simp at h
  | dispute st =>
    obtain ⟨d,hd⟩ := learn_dispute h
    cases hd
  | _ => exact h.elim

end Mostro
