import Mostro.HandlerKnowledge

set_option autoImplicit false

/-!
Every handler keeps to the discipline: one theorem for each function of the source, read off its
text.
-/

namespace Mostro

open Interleaving Prog

variable {e : MostroError} {h hash : Hash} {o order : Order} {b : Bond}

/-- The program keeps to the discipline of the request, knowing `Γ`. -/
abbrev Disciplined {α : Type} (req : Request) (Γ : Set Fact) (p : M α) : Prop :=
  p.Follows (discipline req) Γ

section

variable {req : Request} {Γ : Set Fact} {α β : Type}
variable {q : Query} {status : Status} {id : Uuid} {bond : Bond} {cfg : Settings}

theorem disciplined_bind_assoc {γ : Type} {p : M α} {f : α → M β} {g : β → M γ}
    (h : Disciplined req Γ (p.bind fun a => (f a).bind g)) :
    Disciplined req Γ ((p.bind f).bind g) := by rwa [bind_assoc]

theorem disciplined_ask_attempt_bind (op : Op) {f : op.Res → M β} :
    Disciplined req Γ ((ask op).attempt.bind f) ↔
      op.need req Γ ∧ ∀ r, op.answers r → Disciplined req (Γ ∪ op.learn r) (f r) := by
  refine and_congr Iff.rfl (forall_congr' fun r => imp_congr_right fun _ => ?_)
  cases r <;> rfl

theorem disciplined_ask_bind (op : Op) {f : op.Out → M β} :
    Disciplined req Γ ((ask op).bind f) ↔
      op.need req Γ ∧
        ∀ a, op.answers (.ok a) → Disciplined req (Γ ∪ op.learn (.ok a)) (f a) := by
  refine and_congr Iff.rfl ⟨fun h a ha => h (.ok a) ha,fun h r hr => ?_⟩
  cases r with
  | ok a => exact h a hr
  | error e => trivial

theorem disciplined_ask_bind_of (op : Op) {f : op.Out → M β} (hn : op.need req Γ)
    (hl : ∀ r, op.learn r = ∅) (hf : ∀ a, Disciplined req Γ (f a)) :
    Disciplined req Γ ((ask op).bind f) := by
  refine (disciplined_ask_bind op).mpr ⟨hn,fun a _ => ?_⟩
  rw [hl,Set.union_empty]
  exact hf a

theorem disciplined_ask {op : Op} : Disciplined req Γ (ask op) ↔ op.need req Γ := by
  refine ⟨fun h => h.1,fun h => ⟨h,fun r _ => ?_⟩⟩
  cases r <;> trivial

@[simp] theorem disciplined_require_bind {v : Option α} {f : α → M β} :
    Disciplined req Γ ((require v e).bind f) ↔ ∀ a, v = some a → Disciplined req Γ (f a) := by
  cases v <;> simp [require,Disciplined]

@[simp] theorem disciplined_ensure_bind {c : Bool} {f : Unit → M β} :
    Disciplined req Γ ((ensure c e).bind f) ↔ (c = true → Disciplined req Γ (f ())) := by
  cases c <;> simp [ensure,Disciplined]

@[simp] theorem disciplined_ensure {c : Bool} : Disciplined req Γ (ensure c e) := by
  cases c <;> simp [ensure,Disciplined]

@[simp] theorem disciplined_require {v : Option α} : Disciplined req Γ (require v e) := by
  cases v <;> simp [require,Disciplined]

theorem disciplined_query_bind {f : q.Out → M β} (hn : q.need Γ)
    (hf : ∀ v, q.answers v → Disciplined req (Γ ∪ q.learn v) (f v)) :
    Disciplined req Γ ((query q).bind f) :=
  (disciplined_ask_bind (.query q)).mpr ⟨hn,hf⟩

theorem disciplined_query_attempt_bind {f : Except MostroError q.Out → M β} (hn : q.need Γ)
    (hok : ∀ v, q.answers v → Disciplined req (Γ ∪ q.learn v) (f (.ok v)))
    (herr : ∀ e, Disciplined req Γ (f (.error e))) :
    Disciplined req Γ ((query q).attempt.bind f) := by
  refine (disciplined_ask_attempt_bind (.query q)).mpr ⟨hn,fun r hr => ?_⟩
  cases r with
  | ok v => exact hok v hr
  | error e => exact (herr e).mono Set.subset_union_left

theorem disciplined_query (hn : q.need Γ) : Disciplined req Γ (query q) :=
  disciplined_ask.mpr hn

theorem disciplined_timestamp_bind {f : Int → M β} (hf : ∀ t, Disciplined req Γ (f t)) :
    Disciplined req Γ (timestamp.bind f) :=
  disciplined_ask_bind_of .timestamp trivial (fun _ => rfl) hf

theorem disciplined_check_bind {c : Check} {f : Unit → M β} (hf : Disciplined req Γ (f ())) :
    Disciplined req Γ ((check c).bind f) :=
  disciplined_ask_bind_of (.check c) trivial (fun _ => rfl) fun _ => hf

@[simp] theorem disciplined_check {c : Check} : Disciplined req Γ (check c) :=
  disciplined_ask.mpr trivial

theorem disciplined_runOrder_bind {u : OrderUpdate} {f : Nat → M β} (hn : u.need req Γ)
    (hf : ∀ n, Disciplined req Γ (f n)) : Disciplined req Γ ((runOrder u).bind f) :=
  Follows.seq (disciplined_ask.mpr hn) hf

theorem disciplined_runOrder_learn {u : OrderUpdate} {f : Nat → M β} (hn : u.need req Γ)
    (hf : ∀ n, Disciplined req (Γ ∪ u.learn n) (f n)) : Disciplined req Γ ((runOrder u).bind f) :=
  (disciplined_ask_bind (.order (.run u))).mpr ⟨hn,fun n _ => hf n⟩

theorem disciplined_updateOrder {read row : Order} (hn : (OrderUpdate.update read row).need req Γ) :
    Disciplined req Γ (updateOrder read row) :=
  disciplined_runOrder_bind hn fun _ => trivial

theorem disciplined_runBond_bind {u : BondUpdate} {f : Nat → M β} (hn : u.need req Γ)
    (hf : ∀ n, Disciplined req Γ (f n)) : Disciplined req Γ ((runBond u).bind f) :=
  disciplined_ask_bind_of (.bond (.run u)) hn (fun _ => rfl) hf

theorem disciplined_runBond {u : BondUpdate} (hn : u.need req Γ) :
    Disciplined req Γ (runBond u) :=
  disciplined_ask.mpr hn

theorem disciplined_lnd_bind {c : LndCall} {f : c.Out → M β} (hn : c.need req Γ)
    (hf : ∀ a, Disciplined req (Γ ∪ c.learn (.ok a)) (f a)) :
    Disciplined req Γ ((lnd c).bind f) :=
  (disciplined_ask_bind (.lnd c)).mpr ⟨hn,fun a _ => hf a⟩

theorem asksEscrow_not_job (h : req.asksEscrow = true) :
    req.isGuardian = false ∧ req.isTimeoutJob = false := by
  unfold Request.asksEscrow at h
  split at h
  all_goals first | exact ⟨rfl,rfl⟩ | cases h

theorem KnowsHold.of_created {memo : HoldMemo} (hreq : req.asksEscrow = true)
    (hc : .created memo h ∈ Γ) : KnowsHold req Γ h := .inl ⟨hreq,memo,hc⟩

theorem KnowsHold.of_order (ho : CancelsEscrow req Γ o) (hh : o.hash = some h) :
    KnowsHold req Γ h := .inr (.inl ⟨o,ho,hh⟩)

theorem KnowsHold.of_bond (hb : .bond b ∈ Γ) (hh : b.hash = some h) :
    KnowsHold req Γ h := .inr (.inr ⟨b,hb,hh⟩)

theorem disciplined_cancelHoldInvoice (hk : KnowsHold req Γ h) :
    Disciplined req Γ (lnd (.cancelHoldInvoice h)) := disciplined_ask.mpr hk

theorem disciplined_invoiceSubscribe : Disciplined req Γ (invoiceSubscribe h) :=
  disciplined_ask.mpr trivial

theorem disciplined_connect_bind {f : Unit → M β} (hf : Disciplined req Γ (f ())) :
    Disciplined req Γ ((lnd .connect).bind f) :=
  disciplined_ask_bind_of (.lnd .connect) trivial (fun _ => rfl) fun _ => hf

theorem disciplined_updateOrderEvent_bind {f : Order → M β}
    (hf : Disciplined req Γ (f { o with status })) :
    Disciplined req Γ ((updateOrderEvent status o).bind f) := by
  unfold updateOrderEvent
  rw [bind_assoc]
  exact disciplined_ask_bind_of _ trivial (fun _ => rfl) fun _ => hf

theorem disciplined_updateOrderEvent : Disciplined req Γ (updateOrderEvent status o) :=
  disciplined_ask_bind_of (.updateOrderEvent o.id status) trivial (fun _ => rfl) fun _ => trivial

theorem disciplined_updateOrderEvent_attempt_bind {f : Except MostroError Order → M β}
    (hok : Disciplined req Γ (f (.ok { o with status })))
    (herr : ∀ e, Disciplined req Γ (f (.error e))) :
    Disciplined req Γ ((updateOrderEvent status o).attempt.bind f) := by
  refine ⟨trivial,fun r _ => ?_⟩
  cases r with
  | ok a => exact hok.mono Set.subset_union_left
  | error e => exact (herr e).mono Set.subset_union_left

theorem disciplined_requireOrder_bind {f : Order → M β}
    (hf : ∀ o, o.id = id → Disciplined req (Γ ∪ {.order o}) (f o)) :
    Disciplined req Γ ((requireOrder id e).bind f) := by
  unfold requireOrder
  rw [bind_assoc]
  refine disciplined_query_bind trivial fun v hv => ?_
  cases v with
  | none => trivial
  | some o => exact (hf o (hv o (by simp [Option.toList]))).mono (by simp [Query.learn,ordersRead])

theorem disciplined_getOrder_bind {f : Order → M β}
    (hf : ∀ o, o.id = id → Disciplined req (Γ ∪ {.order o}) (f o)) :
    Disciplined req Γ ((getOrder id).bind f) := disciplined_requireOrder_bind hf

theorem disciplined_setTimestampNow_bind {f : Order → M β}
    (hf : ∀ t, Disciplined req Γ (f { o with takenAt := t })) :
    Disciplined req Γ ((setTimestampNow o).bind f) := by
  unfold setTimestampNow
  rw [bind_assoc]
  exact disciplined_timestamp_bind hf

theorem republishWinningStateAfterCasMiss_disciplined :
    Disciplined req Γ (republishWinningStateAfterCasMiss id) := by
  unfold republishWinningStateAfterCasMiss
  refine disciplined_query_attempt_bind trivial (fun v _ => ?_) fun e => trivial
  split
  · exact disciplined_updateOrderEvent.ignore
  · trivial

theorem showHoldInvoice_disciplined {paymentRequest : Option PaymentRequest} {buyer seller : Pubkey}
    {origin : HoldInvoiceOrigin} (hreq : req.asksEscrow = true) (hslice : KnowsSlice Γ order) :
    Disciplined req Γ (showHoldInvoice paymentRequest buyer seller order origin) := by
  unfold showHoldInvoice
  refine disciplined_connect_bind (disciplined_lnd_bind trivial fun hash => ?_)
  refine disciplined_setTimestampNow_bind fun t => disciplined_updateOrderEvent_bind ?_
  have hcreated : Fact.created (.escrow order.id) hash ∈
      Γ ∪ (LndCall.createHoldInvoice (.escrow order.id) (order.amount + order.fee)).learn
        (.ok hash) := .inr (.inl rfl)
  refine disciplined_runOrder_bind ⟨.inl rfl,.inr ⟨hash,hcreated,rfl,rfl⟩,
    ⟨fun _ => ⟨hash,rfl,.inr (.inr rfl)⟩,nofun⟩,hslice.mono Set.subset_union_left⟩ fun won => ?_
  split
  · refine (disciplined_cancelHoldInvoice (.of_created hreq hcreated)).ignore.seq fun _ => ?_
    exact republishWinningStateAfterCasMiss_disciplined.seq fun _ => trivial
  · exact disciplined_invoiceSubscribe.ignore

theorem showCashuEscrowRequest_disciplined {buyer seller : Pubkey}
    (hreq : req.isGuardian = false ∧ req.isTimeoutJob = false) (ho : KnowsEscrow Γ order)
    (hl : KnowsListed Γ order)
    (hoffer : KnowsOffer req Γ
      { order with buyerPubkey := some buyer, sellerPubkey := some seller }) :
    Disciplined req Γ (showCashuEscrowRequest buyer seller order) := by
  unfold showCashuEscrowRequest
  refine disciplined_runOrder_bind ⟨rfl,rfl⟩ fun claimed => disciplined_ensure_bind.mpr fun _ => ?_
  refine disciplined_updateOrderEvent_bind (disciplined_updateOrder ?_)
  exact ⟨rfl,rfl,nofun,nofun,nofun,.inl ho,.inl rfl,nofun,nofun,by simp [hreq],nofun,
    .inl (hl.read rfl),.proceeds hreq.2 rfl (.inl rfl),hoffer,nofun⟩

theorem setWaitingInvoiceStatus_disciplined : Disciplined req Γ (setWaitingInvoiceStatus order) :=
  disciplined_require_bind.mpr fun _ _ => trivial

theorem captured_learn (p : Hash) :
    {.settled p, .captured p} ⊆ (Op.lnd (.settleHoldInvoice p)).learn (.ok ()) := by
  rintro f (rfl | rfl)
  · exact .inl ⟨rfl,trivial⟩
  · exact .inr ⟨rfl,rfl⟩

theorem settleSellerHoldInvoice_bind_disciplined {sender : Pubkey} {isAdmin : Bool} {f : Unit → M β}
    (ho : .order order ∈ Γ) (hs : order.status = .fiatSent ∨ order.status = .dispute)
    (hreq : req.settles order.id)
    (hf : ∀ p, Settleable Γ order p → Disciplined req (Γ ∪ {.settled p, .captured p}) (f ())) :
    Disciplined req Γ ((settleSellerHoldInvoice sender isAdmin order).bind f) := by
  unfold settleSellerHoldInvoice
  refine disciplined_bind_assoc (disciplined_require_bind.mpr fun seller _ => ?_)
  refine disciplined_bind_assoc (disciplined_ensure_bind.mpr fun _ => ?_)
  refine disciplined_bind_assoc (disciplined_require_bind.mpr fun p hp => ?_)
  have hset : Settleable Γ order p := ⟨ho,hp,hs⟩
  refine (disciplined_ask_bind (.lnd (.settleHoldInvoice p))).mpr
    ⟨.inl ⟨order,hset,hreq⟩,fun _ _ => (hf p hset).mono ?_⟩
  exact Set.union_subset_union_right _ (captured_learn p)

theorem settleSellerHoldInvoice_attempt_bind_disciplined {sender : Pubkey} {isAdmin : Bool}
    {f : Except MostroError Unit → M β} (ho : .order order ∈ Γ)
    (hs : order.status = .fiatSent ∨ order.status = .dispute) (hreq : req.settles order.id)
    (hok : ∀ p, Settleable Γ order p → Disciplined req (Γ ∪ {.settled p, .captured p}) (f (.ok ())))
    (herr : ∀ e, Disciplined req Γ (f (.error e))) :
    Disciplined req Γ ((settleSellerHoldInvoice sender isAdmin order).attempt.bind f) := by
  unfold settleSellerHoldInvoice
  cases order.sellerPubkey with
  | none => exact herr _
  | some seller =>
    cases hc : (isAdmin || sender == seller) with
    | false =>
      simp only [require,ensure,bind_eq,ret_bind,hc]
      exact herr _
    | true =>
      cases hp : order.preimage with
      | none =>
        simp only [require,ensure,bind_eq,ret_bind,hc,if_true]
        exact herr _
      | some p =>
        have hset : Settleable Γ order p := ⟨ho,hp,hs⟩
        simp only [require,ensure,bind_eq,ret_bind,hc,if_true]
        refine (disciplined_ask_attempt_bind (.lnd (.settleHoldInvoice p))).mpr
          ⟨.inl ⟨order,hset,hreq⟩,fun r _ => ?_⟩
        cases r with
        | ok _ => exact (hok p hset).mono (Set.union_subset_union_right _ (captured_learn p))
        | error e => exact (herr e).mono Set.subset_union_left

theorem cancelBondInvoice_bind_disciplined {f : Unit → M β} (hk : KnowsHold req Γ hash)
    (hf : Disciplined req (Γ ∪ {.canceled hash}) (f ())) :
    Disciplined req Γ ((cancelBondInvoice hash).bind f) := by
  unfold cancelBondInvoice
  refine disciplined_bind_assoc (disciplined_connect_bind (disciplined_bind_assoc ?_))
  refine (disciplined_ask_attempt_bind (.lnd (.cancelHoldInvoice hash))).mpr ⟨hk,fun r _ => ?_⟩
  cases r with
  | ok _ => exact hf.mono (by simp [Op.learn,LndCall.learn,cancelConfirmed])
  | error e =>
    refine disciplined_ensure_bind.mpr fun hdone => hf.mono ?_
    simp [Op.learn,LndCall.learn,cancelConfirmed,beq_iff_eq.mp hdone]

theorem markReleased_disciplined (hb : .bond bond ∈ Γ) (ht : bond.state.isTerminal = false)
    (hc : ∀ h, bond.hash = some h → .canceled h ∈ Γ) : Disciplined req Γ (markReleased bond) := by
  refine disciplined_timestamp_bind fun now => ?_
  exact disciplined_runBond_bind ⟨hb,ht,⟨some now,rfl⟩,hc⟩ fun _ => trivial

theorem releaseBond_disciplined (hb : .bond bond ∈ Γ) : Disciplined req Γ (releaseBond bond) := by
  unfold releaseBond
  split
  · trivial
  next ht =>
    have ht : bond.state.isTerminal = false := by simpa using ht
    split
    next hn => exact markReleased_disciplined hb ht (by simp [hn])
    next hash hh =>
      refine cancelBondInvoice_bind_disciplined (.of_bond hb hh) ?_
      refine markReleased_disciplined (.inl hb) ht fun h heq => ?_
      rw [hh] at heq
      cases heq
      exact .inr rfl

theorem mem_bondsRead {bs : List Bond} (hb : b ∈ bs) : .bond b ∈ Γ ∪ bondsRead bs :=
  .inr ⟨b,hb,rfl⟩

theorem mem_bondsRead_some : .bond b ∈ Γ ∪ bondsRead (Option.toList (some b)) :=
  mem_bondsRead (by simp)

theorem mem_ordersRead {os : List Order} (ho : o ∈ os) :
    .order o ∈ Γ ∪ ordersRead os := .inr ⟨o,ho,rfl⟩

theorem mem_ordersRead_some : .order o ∈ Γ ∪ ordersRead (Option.toList (some o)) :=
  mem_ordersRead (by simp)

theorem releaseActiveBonds_disciplined {order : Uuid} {retainMakers : Bool} :
    Disciplined req Γ (releaseActiveBonds order retainMakers) := by
  refine disciplined_query_bind trivial fun bonds _ => Follows.forEach fun bond hbond => ?_
  split
  · trivial
  · exact (releaseBond_disciplined (mem_bondsRead hbond)).ignore

theorem releaseBondsForOrderOrWarn_disciplined {order : Uuid} :
    Disciplined req Γ (releaseBondsForOrderOrWarn order) := releaseActiveBonds_disciplined.ignore

theorem releaseTakerBondsForOrderOrWarn_disciplined {order : Uuid} :
    Disciplined req Γ (releaseTakerBondsForOrderOrWarn order) :=
  releaseActiveBonds_disciplined.ignore

theorem withTaker_fields (b : Bond) (ctx : Option TakerContext) :
    (b.withTaker ctx).state = b.state ∧ (b.withTaker ctx).parentBondId = b.parentBondId ∧
      (b.withTaker ctx).childOrderId = b.childOrderId ∧
      (b.withTaker ctx).amountSats = b.amountSats ∧
      (b.withTaker ctx).orderId = b.orderId ∧
      (b.withTaker ctx).slashedReason = b.slashedReason ∧
      (b.withTaker ctx).nodeShareSats = b.nodeShareSats ∧
      (b.withTaker ctx).role = b.role ∧ (b.withTaker ctx).pubkey = b.pubkey ∧
      (b.withTaker ctx).payoutInvoice = b.payoutInvoice ∧
      (b.withTaker ctx).payoutAttempts = b.payoutAttempts := by
  cases ctx <;> exact ⟨rfl,rfl,rfl,rfl,rfl,rfl,rfl,rfl,rfl,rfl,rfl⟩

theorem computeBondAmount_nonneg (amount : Int) (cfg : AntiAbuseBondSettings) :
    0 ≤ computeBondAmount amount cfg := by
  unfold computeBondAmount
  dsimp only
  split <;> simp

theorem requestBond_disciplined {x : Order} {pubkey : Pubkey} {role : BondRole} {amount : Int}
    {ctx : Option TakerContext} (ha : 0 ≤ amount) (hx : .order x ∈ Γ) (hid : x.id = order.id)
    (hmaker : role = .maker → req.publishes = true ∧ x.rangeParentId = none ∧
      makerSlicePubkey x = some pubkey)
    (htaker : role = .taker → ∃ c, ctx = some c ∧ x.offers c.fiatAmount = true) :
    Disciplined req Γ (requestBond order pubkey role amount ctx) := by
  unfold requestBond
  refine disciplined_connect_bind (disciplined_lnd_bind trivial fun hash => ?_)
  refine disciplined_timestamp_bind fun now => ?_
  obtain ⟨hstate,hparent,hchild,hamount,horder,hreason,hshare,hrole,hkey,hinv,hatt⟩ :=
    withTaker_fields (Bond.newRequested order.id pubkey role amount now) ctx
  refine (disciplined_ask_bind (.bond (.create _))).mpr
    ⟨⟨hstate,hparent,hchild,?_,⟨⟨hreason,hshare⟩,hinv,hatt⟩,?_,hash,?_,rfl,rfl⟩,fun id _ => ?_⟩
  · exact hamount.symm ▸ ha
  · refine ⟨x,.inl hx,hid.trans horder.symm,fun h => ?_,fun h => ?_⟩
    · exact hkey.symm ▸ hmaker (hrole.symm.trans h)
    · obtain ⟨c,rfl,hoffers⟩ := htaker (hrole.symm.trans h)
      exact ⟨c.fiatAmount,rfl,hoffers⟩
  · rw [horder]
    exact .inr (.inl rfl)
  · refine Follows.attempt_seq disciplined_invoiceSubscribe fun r => ?_
    cases r with
    | ok _ => trivial
    | error e => exact (releaseBond_disciplined (.inr rfl)).ignore.seq fun _ => trivial

theorem requestTakerBond_disciplined {x : Order} {taker : Pubkey} {ctx : TakerContext}
    (hx : .order x ∈ Γ) (hid : x.id = order.id) (hoffers : x.offers ctx.fiatAmount = true) :
    Disciplined req Γ (requestTakerBond cfg order taker ctx) := by
  unfold requestTakerBond
  refine disciplined_require_bind.mpr fun bondCfg _ => ?_
  refine Follows.seq
    (requestBond_disciplined (computeBondAmount_nonneg _ _) hx hid (by simp) fun _ =>
    ⟨ctx,rfl,hoffers⟩) fun bond => ?_
  refine Follows.attempt_seq (disciplined_ask.mpr trivial) fun r => ?_
  split
  · exact disciplined_updateOrderEvent.ignore.seq fun _ => trivial
  · trivial

theorem requestMakerBond_disciplined {maker : Pubkey} {notional : Int} (hx : .order order ∈ Γ)
    (hreq : req.publishes = true) (hparent : order.rangeParentId = none)
    (hmaker : makerSlicePubkey order = some maker) :
    Disciplined req Γ (requestMakerBond cfg order maker notional) :=
  disciplined_require_bind.mpr fun _ _ =>
    requestBond_disciplined (computeBondAmount_nonneg _ _) hx rfl
    (fun _ => ⟨hreq,hparent,hmaker⟩) (by simp)

theorem finalizeOrderPublication_disciplined
    (hreq : req.isGuardian = false ∧ req.isTimeoutJob = false) (ho : KnowsEscrow Γ order)
    (hl : KnowsListed Γ order) (hoffer : KnowsOffer req Γ order) (hs : order.status = .pending) :
    Disciplined req Γ (finalizeOrderPublication order) := by
  unfold finalizeOrderPublication
  refine disciplined_check_bind (Follows.seq (disciplined_updateOrder ?_) fun _ => ?_)
  · exact ⟨rfl,hs ▸ rfl,nofun,nofun,fun _ => .inl hl,.inl ho,.inl rfl,
      fun h => by simp [hs,Status.isEscrowed] at h,nofun,by simp [hreq],fun _ => .inl hs,
      .inl (hl.read rfl),.proceeds hreq.2 rfl (.inl hs.symm),hoffer,nofun⟩
  · exact Follows.seq (disciplined_ask.mpr trivial) fun _ => trivial

theorem resumePublishAfterMakerBond_disciplined
    (hreq : req.isGuardian = false ∧ req.isTimeoutJob = false) (ho : .order order ∈ Γ)
    (hl : order.status.isListed = true) :
    Disciplined req Γ (resumePublishAfterMakerBond order) := by
  unfold resumePublishAfterMakerBond
  refine disciplined_runOrder_bind trivial fun claimed => ?_
  have hfinal : Disciplined req Γ (finalizeOrderPublication { order with status := .pending }) :=
    finalizeOrderPublication_disciplined hreq ⟨order,ho,rfl,rfl,rfl,rfl⟩ ⟨order,ho,hl,rfl,rfl⟩
      (.of_same ho ⟨rfl,rfl,rfl,rfl⟩) rfl
  split
  · trivial
  · split <;> exact disciplined_require_bind.mpr fun _ _ =>
      disciplined_require_bind.mpr fun _ _ => hfinal

theorem prepareNewOrder_bind_disciplined {ext : Externals} {new : SmallOrder}
    {initiator identity trade : Pubkey} {tradeIndex : Option Int} {f : Order → M β}
    (hf : ∀ o, o.hash = none → o.preimage = none → o.status = .pending →
      o.rangeParentId = none → o.AsNew → (o.priceFromApi = true → o.amount = 0) →
      makerSlicePubkey o = some trade → Disciplined req Γ (f o)) :
    Disciplined req Γ
      ((prepareNewOrder ext new initiator identity trade tradeIndex).bind f) := by
  unfold prepareNewOrder
  refine disciplined_bind_assoc (disciplined_require_bind.mpr fun kind _ => ?_)
  refine disciplined_bind_assoc (disciplined_timestamp_bind fun now => ?_)
  cases kind <;> exact hf _ rfl rfl rfl rfl rfl beq_iff_eq.mp rfl

theorem makerBondNotionalSats_disciplined : Disciplined req Γ (makerBondNotionalSats order) := by
  have hquote (fiat : Int) {f : Int × Int → M Int} (hf : ∀ q, Disciplined req Γ (f q)) :
      Disciplined req Γ ((ask (.marketAmountAndFee fiat)).bind f) :=
    disciplined_ask_bind_of (.marketAmountAndFee fiat) trivial (fun _ => rfl) hf
  unfold makerBondNotionalSats
  split
  · exact disciplined_require_bind.mpr fun _ _ => hquote _ fun _ => trivial
  · split
    · trivial
    · exact hquote _ fun _ => trivial

theorem publishOrder_disciplined {ext : Externals} {new : SmallOrder}
    {initiator identity trade : Pubkey} {tradeIndex : Option Int}
    (hreq : req.isGuardian = false ∧ req.isTimeoutJob = false) (hpub : req.publishes = true) :
    Disciplined req Γ (publishOrder cfg ext new initiator identity trade tradeIndex) := by
  refine prepareNewOrder_bind_disciplined fun order hh hp hs hpar hnew hquote hmaker => ?_
  have horigin (st : Status) : KnowsOrigin req Γ { order with status := st } :=
    .inl ⟨hpar,by rw [← hs]; exact hnew⟩
  have hheld : order.invoiceHeldAt = 0 := by
    refine (congrArg Order.invoiceHeldAt hnew).trans ?_
    unfold PublishedTerms.publish
    cases order.publishedTerms.kind <;> rfl
  split
  · refine makerBondNotionalSats_disciplined.seq fun notional => ?_
    refine (disciplined_ask_bind (.order (.create _))).mpr
      ⟨⟨hh,hp,.inr rfl,horigin _,hheld,hquote⟩,fun id _ => ?_⟩
    refine Follows.attempt_seq (requestMakerBond_disciplined (.inr rfl) hpub hpar hmaker)
      fun r => ?_
    split
    · trivial
    · exact Follows.seq (Follows.ignore (disciplined_ask.mpr trivial)) fun _ => trivial
  · refine (disciplined_ask_bind (.order (.create _))).mpr
      ⟨⟨hh,hp,.inl hs,horigin _,hheld,hquote⟩,fun id _ => ?_⟩
    refine finalizeOrderPublication_disciplined hreq ⟨{ order with id },.inr rfl,rfl,rfl,rfl,rfl⟩
      ⟨{ order with id },.inr rfl,?_,rfl,rfl⟩ (.of_same (.inr rfl) ⟨rfl,rfl,rfl,rfl⟩) hs
    simp [hs,Status.isListed]

theorem promoteTakerContextToOrder_bind_disciplined {b₀ : Bond} {f : Order → M β}
    (ho : .order order ∈ Γ) (hb : .bond b ∈ Γ) (horder : b.orderId = order.id) (hb₀ : .bond b₀ ∈ Γ)
    (hrole : b₀.role = .taker) (hsame : b.hash = b₀.hash) (hhash : b.hash.isSome = true)
    (hf : ∀ o, KnowsBondedSlice Γ o → Disciplined req (Γ ∪ {.promoted o.id}) (f o)) :
    Disciplined req Γ ((promoteTakerContextToOrder order b).bind f) := by
  have hpromote (o : Order) (ho : KnowsBondedSlice Γ o) : Disciplined req Γ (Prog.bind (do
      let won ← runOrder (.casPromoteTakerContext o)
      ensure (won != 0) (.cantDo .notAllowedByStatus)
      pure o) f) := by
    refine disciplined_bind_assoc (disciplined_runOrder_learn ho fun won => ?_)
    refine disciplined_bind_assoc (disciplined_ensure_bind.mpr fun hwon => ?_)
    refine (hf o ho).mono (Set.union_subset_union_right _ ?_)
    rintro _ rfl
    exact ⟨rfl,by simpa using hwon⟩
  unfold promoteTakerContextToOrder
  cases hk : order.kind
  all_goals
    refine disciplined_bind_assoc (disciplined_setTimestampNow_bind fun t => ?_)
    refine hpromote _ ?_
    exact ⟨order,b,b₀,ho,rfl,by simp [Order.offer,hk],hb,horder,rfl,hb₀,hrole,hsame,hhash⟩

theorem resumeTakeAfterBond_disciplined (hreq : req.asksEscrow = true) (hslice : KnowsSlice Γ order)
    (hp : .promoted order.id ∈ Γ) : Disciplined req Γ (resumeTakeAfterBond order) := by
  refine disciplined_require_bind.mpr fun buyer _ => disciplined_require_bind.mpr fun seller _ => ?_
  split
  · exact showHoldInvoice_disciplined hreq hslice
  · exact showHoldInvoice_disciplined hreq hslice
  · refine setWaitingInvoiceStatus_disciplined.seq fun _ => disciplined_updateOrderEvent_bind ?_
    refine disciplined_runOrder_bind (.inr ⟨rfl,hp⟩) fun won => ?_
    split
    · exact republishWinningStateAfterCasMiss_disciplined.seq fun _ => trivial
    · trivial

theorem onMakerBondAccepted_disciplined (hreq : req.isGuardian = false ∧ req.isTimeoutJob = false) :
    Disciplined req Γ (onMakerBondAccepted bond hash) := by
  refine disciplined_timestamp_bind fun now => disciplined_runBond_bind trivial fun _ => ?_
  refine disciplined_query_bind trivial fun current _ => ?_
  split
  · trivial
  · split
    · trivial
    · refine disciplined_requireOrder_bind fun order _ => ?_
      split
      · trivial
      next hs =>
        refine resumePublishAfterMakerBond_disciplined hreq (.inr rfl) ?_
        rw [not_not.mp hs]
        rfl

theorem releaseLosers_disciplined {current : Bond} :
    Disciplined req Γ (releaseLosers current) := by
  refine disciplined_query_attempt_bind trivial (fun losers _ => ?_) fun e => trivial
  refine Follows.forEach fun loser hloser => ?_
  split
  · exact (releaseBond_disciplined (mem_bondsRead hloser)).ignore
  · trivial

theorem resumeLockedTake_disciplined {current b₀ : Bond} (hreq : req.asksEscrow = true)
    (hb : .bond current ∈ Γ) (hb₀ : .bond b₀ ∈ Γ) (hrole : b₀.role = .taker)
    (hsame : current.hash = b₀.hash) (hhash : current.hash.isSome = true) :
    Disciplined req Γ (resumeLockedTake current) := by
  refine disciplined_requireOrder_bind fun order hid => ?_
  split
  · refine promoteTakerContextToOrder_bind_disciplined (.inr rfl) (.inl hb) hid.symm
      (.inl hb₀) hrole
      hsame hhash fun o ho => ?_
    exact resumeTakeAfterBond_disciplined hreq
      (.inr (.inr (ho.mono Set.subset_union_left))) (.inr rfl)
  · split
    · exact (releaseBond_disciplined (.inl hb)).ignore
    · trivial

theorem onBondInvoiceAccepted_disciplined (hreq : req.asksEscrow = true) :
    Disciplined req Γ (onBondInvoiceAccepted hash) := by
  refine disciplined_query_bind trivial fun found hfound => ?_
  cases found with
  | none => trivial
  | some bond =>
    have hbond : bond.hash = some hash := hfound bond (by simp [Option.toList])
    dsimp only
    split
    · exact onMakerBondAccepted_disciplined (asksEscrow_not_job hreq)
    next hmaker =>
      have hrole : bond.role = .taker := by
        cases hr : bond.role with
        | maker => exact absurd hr hmaker
        | taker => rfl
      refine disciplined_timestamp_bind fun now => disciplined_runBond_bind trivial fun locked => ?_
      refine disciplined_query_bind trivial fun again hagain => ?_
      cases again with
      | none => trivial
      | some current =>
        have hcurrent : current.hash = some hash := hagain current (by simp [Option.toList])
        have hresume : Disciplined req (Γ ∪ bondsRead (some bond).toList ∪
            bondsRead (some current).toList) (resumeLockedTake current) :=
          resumeLockedTake_disciplined hreq mem_bondsRead_some (.inl mem_bondsRead_some) hrole
            (hcurrent.trans hbond.symm) (by rw [hcurrent]; rfl)
        dsimp only
        split
        · split
          · trivial
          · exact (releaseBond_disciplined mem_bondsRead_some).ignore
        · split
          · refine releaseLosers_disciplined.seq fun _ => ?_
            split
            · exact hresume
            · trivial
          · split
            · exact hresume
            · trivial

theorem maybeDropWaitingTakerBond_disciplined {order : Uuid} :
    Disciplined req Γ (maybeDropWaitingTakerBond order) := by
  refine disciplined_runOrder_bind trivial fun dropped => ?_
  split
  · trivial
  · refine disciplined_query_bind trivial fun fresh _ => ?_
    split
    · trivial
    · exact disciplined_updateOrderEvent.ignore

theorem onBondInvoiceCanceled_disciplined (hc : .canceled hash ∈ Γ) :
    Disciplined req Γ (onBondInvoiceCanceled hash) := by
  refine disciplined_query_bind trivial fun found hfound => ?_
  cases found with
  | none => trivial
  | some bond =>
    have hbond : bond.hash = some hash := hfound bond (by simp [Option.toList])
    dsimp only
    split
    · trivial
    next ht =>
      refine Follows.seq (markReleased_disciplined mem_bondsRead_some (by simpa using ht) ?_)
        fun _ => maybeDropWaitingTakerBond_disciplined.ignore
      intro h heq
      rw [hbond] at heq
      cases heq
      exact .inl hc

theorem bondInvoiceMessage_disciplined (hreq : req.asksEscrow = true) :
    Disciplined req Γ (bondInvoiceMessage hash) := by
  refine disciplined_lnd_bind trivial fun state => ?_
  cases state with
  | accepted => exact onBondInvoiceAccepted_disciplined hreq
  | canceled => exact onBondInvoiceCanceled_disciplined (.inr rfl)
  | settled => trivial
  | opened => trivial

end

end Mostro
