import Mostro.HandlerDiscipline

set_option autoImplicit false

/-!
The discipline of slashes, payouts, user and admin actions, and jobs, and with it of the code of
every task.
-/

namespace Mostro

open Interleaving Prog

variable {order : Order} {bonds : List Bond} {side : Side} {bond : Bond} {reason : BondSlashReason}
variable {cfg : Settings} {ext : Externals}

section

variable {req : Request} {Γ : Set Fact} {α β : Type}

theorem findRangeRootFrom_disciplined {depth : Nat} :
    Disciplined req Γ (findRangeRootFrom depth order) := by
  induction depth generalizing Γ order with
  | zero => trivial
  | succ depth ih =>
    unfold findRangeRootFrom
    split
    · trivial
    · refine disciplined_query_bind trivial fun found _ => ?_
      split
      · exact ih
      · trivial

theorem findRangeRootOrder_disciplined :
    Disciplined req Γ (findRangeRootOrder order) := findRangeRootFrom_disciplined

theorem findMakerBondForOrder_bind_disciplined {f : Option Bond → M β}
    (hf : ∀ b, Disciplined req (Γ ∪ bondsRead b.toList) (f b)) :
    Disciplined req Γ ((findMakerBondForOrder order).bind f) := by
  refine disciplined_bind_assoc (findRangeRootOrder_disciplined.seq fun root => ?_)
  exact disciplined_query_bind trivial fun b _ => hf b

theorem findMakerBondForOrder_attempt_bind_disciplined {f : Except MostroError (Option Bond) → M β}
    (hok : ∀ b, Disciplined req (Γ ∪ bondsRead b.toList) (f (.ok b)))
    (herr : ∀ e, Disciplined req Γ (f (.error e))) :
    Disciplined req Γ ((findMakerBondForOrder order).attempt.bind f) := by
  unfold findMakerBondForOrder
  rw [bind_eq,attempt_bind]
  refine findRangeRootOrder_disciplined.attempt_seq fun r => ?_
  cases r with
  | ok root => exact disciplined_query_attempt_bind trivial (fun b _ => hok b) herr
  | error e => exact herr e

theorem orderHasRangeMakerBond_disciplined : Disciplined req Γ (orderHasRangeMakerBond order) :=
  findRangeRootOrder_disciplined.seq fun _ => trivial

theorem resolveLockedBond_eq_some {b : Bond} (h : resolveLockedBond order bonds side = some b) :
    b ∈ bonds ∧ b.state = .locked ∧ sidePubkey order side = some b.pubkey := by
  unfold resolveLockedBond at h
  split at h
  · cases h
  next pk hpk =>
    have hb := List.find?_some h
    simp only [Bool.and_eq_true,beq_iff_eq] at hb
    exact ⟨List.mem_of_find?_eq_some h,hb.2,by rw [hpk,hb.1]⟩

/-- What a handler knows of a slash target: it has read it, and unless the target is a range
maker bond it is a bond of the side to blame. -/
def KnowsTarget (Γ : Set Fact) (order : Order) (bonds : List Bond) (side : Side) (isRange : Bool)
    (b : Bond) : Prop :=
  .bond b ∈ Γ ∧ ((isRange && sideIsMaker order side) = false →
    b ∈ bonds ∧ sidePubkey order side = some b.pubkey)

theorem resolveSlashTarget_bind_disciplined {isRange : Bool} {f : Option Bond → M β}
    (hb : ∀ b ∈ bonds, .bond b ∈ Γ) (hnone : Disciplined req Γ (f none))
    (hsome : ∀ b Γ', Γ ⊆ Γ' → KnowsTarget Γ' order bonds side isRange b →
      Disciplined req Γ' (f (some b))) :
    Disciplined req Γ ((resolveSlashTarget order bonds side isRange).bind f) := by
  unfold resolveSlashTarget
  split
  next b hres =>
    obtain ⟨hmem,_,hpk⟩ := resolveLockedBond_eq_some hres
    exact hsome b Γ subset_rfl ⟨hb b hmem,fun _ => ⟨hmem,hpk⟩⟩
  · split
    next hmaker =>
      refine disciplined_bind_assoc (findMakerBondForOrder_bind_disciplined fun found => ?_)
      cases found with
      | none => exact hnone.mono Set.subset_union_left
      | some b =>
        simp only [pure_eq,ret_bind,Option.filter]
        split
        · refine hsome b _ Set.subset_union_left ⟨mem_bondsRead_some,fun h => ?_⟩
          rw [h] at hmaker
          cases hmaker
        · exact hnone.mono Set.subset_union_left
    · exact hnone

theorem resolveSlashTarget_disciplined {isRange : Bool} :
    Disciplined req Γ (resolveSlashTarget order bonds side isRange) := by
  unfold resolveSlashTarget
  split
  · trivial
  · split
    · exact findMakerBondForOrder_bind_disciplined fun _ => trivial
    · trivial

theorem validateBondResolution_disciplined {resolution : BondResolution} :
    Disciplined req Γ (validateBondResolution order resolution) := by
  unfold validateBondResolution
  split
  · trivial
  · refine disciplined_query_bind trivial fun bonds _ => ?_
    refine orderHasRangeMakerBond_disciplined.seq fun isRange => ?_
    have hside (side : Side) {Γ : Set Fact} : Disciplined req Γ (do
        let target ← resolveSlashTarget order bonds side isRange
        ensure target.isSome (.cantDo .invalidPayload)) :=
      resolveSlashTarget_disciplined.seq fun _ => disciplined_ensure
    exact Follows.seq (Follows.when fun _ => hside .seller) fun _ =>
      Follows.when fun _ => hside .buyer

theorem settleBondInvoice_bind_disciplined {preimage : Hash} {f : Bool → M β} (hb : .bond bond ∈ Γ)
    (hp : bond.preimage = some preimage)
    (htrue : Disciplined req (Γ ∪ {.settled preimage}) (f true))
    (hfalse : Disciplined req Γ (f false)) :
    Disciplined req Γ ((settleBondInvoice preimage).bind f) := by
  refine disciplined_bind_assoc ?_
  refine (disciplined_ask_attempt_bind (.lnd (.settleHoldInvoice preimage))).mpr
    ⟨.inr ⟨bond,hb,hp⟩,fun r _ => ?_⟩
  cases r with
  | ok _ => exact htrue.mono (by simp [Op.learn,LndCall.learn,settleConfirmed])
  | error e =>
    cases hs : e.alreadySettled with
    | true =>
      simp only [pure_eq,ret_bind,hs]
      exact htrue.mono (by simp [Op.learn,LndCall.learn,settleConfirmed,hs])
    | false =>
      simp only [pure_eq,ret_bind,hs]
      exact hfalse.mono Set.subset_union_left

theorem slashOne_disciplined {trade : Order} {pct : ℚ} (hb : .bond bond ∈ Γ)
    (horder : bond.orderId = trade.id) (hside : sidePubkey trade side = some bond.pubkey)
    (hr : BlamesTimeout req Γ trade reason) :
    Disciplined req Γ (slashOne trade bond reason pct) := by
  unfold slashOne
  split
  · trivial
  next preimage hp =>
    refine settleBondInvoice_bind_disciplined hb hp ?_ trivial
    refine disciplined_timestamp_bind fun now => Follows.ignore (disciplined_runBond ?_)
    refine ⟨⟨bond,⟨.inl hb,preimage,hp,.inr rfl⟩,rfl,horder,⟨side,hside⟩,pct,rfl⟩,?_⟩
    exact hr.mono Set.subset_union_left

theorem makerSlicePubkey_eq {slice : Order} {pubkey : Pubkey}
    (h : makerSlicePubkey slice = some pubkey) : ∃ side, sidePubkey slice side = some pubkey := by
  unfold makerSlicePubkey at h
  split at h
  · exact ⟨.seller,h⟩
  · exact ⟨.buyer,h⟩

theorem recordMakerSliceSlash_disciplined {slice root : Order} {parent : Bond} {pct : ℚ}
    (hb : .bond parent ∈ Γ) (hr : BlamesTimeout req Γ slice reason) :
    Disciplined req Γ (recordMakerSliceSlash slice root parent reason pct) := by
  unfold recordMakerSliceSlash
  split
  next pubkey maxFiat hpk _ =>
    dsimp only
    split
    · trivial
    · refine disciplined_timestamp_bind fun now => ?_
      refine disciplined_ask_bind_of (.bond (.insertSliceSlash _))
        ⟨hb,rfl,makerSlicePubkey_eq hpk,⟨pct,rfl⟩,hr⟩ (fun _ => rfl) fun inserted => ?_
      split
      · trivial
      · exact disciplined_runBond_bind trivial fun _ => trivial
  · trivial

theorem slashSide_disciplined {target : Bond} {isRange : Bool}
    (ht : KnowsTarget Γ order bonds side isRange target)
    (horder : ∀ b ∈ bonds, b.orderId = order.id) (hr : BlamesTimeout req Γ order reason) :
    Disciplined req Γ (slashSide cfg order target side isRange reason) := by
  unfold slashSide
  split
  · refine findRangeRootOrder_disciplined.seq fun root => ?_
    refine (recordMakerSliceSlash_disciplined ht.1 hr).seq fun inserted => ?_
    split
    · exact disciplined_query_bind trivial fun _ _ => trivial
    · trivial
  next hmaker =>
    obtain ⟨hmem,hpk⟩ := ht.2 (by simpa using hmaker)
    refine (slashOne_disciplined ht.1 (horder target hmem) hpk hr).seq fun _ => ?_
    exact disciplined_query_bind trivial fun _ _ => trivial

theorem applyBondResolution_disciplined {resolution : BondResolution}
    (hr : BlamesTimeout req Γ order reason) :
    Disciplined req Γ (applyBondResolution cfg order resolution reason) := by
  unfold applyBondResolution
  refine disciplined_query_bind trivial fun active hactive => ?_
  have hread : ∀ b ∈ active, .bond b ∈ Γ ∪ bondsRead active := fun b hb => mem_bondsRead hb
  have horder : ∀ b ∈ active, b.orderId = order.id := fun b hb => (hactive b hb).1
  have hslash (flag : Bool) (side : Side) (isRange : Bool) :
      Disciplined req (Γ ∪ bondsRead active)
        (slashStep cfg order active isRange reason flag side) := by
    unfold slashStep
    split
    · refine resolveSlashTarget_bind_disciplined hread trivial fun b Γ' hΓ' ht => ?_
      exact slashSide_disciplined ht horder (hr.mono (Set.subset_union_left.trans hΓ'))
    · trivial
  refine orderHasRangeMakerBond_disciplined.seq fun isRange => ?_
  refine (hslash _ .seller isRange).seq fun seller => (hslash _ .buyer isRange).seq fun buyer => ?_
  refine Follows.seq (Follows.forEach fun bond hbond => ?_) fun _ => trivial
  split
  · trivial
  · exact (releaseBond_disciplined (hread bond hbond)).ignore

theorem releaseOnTimeout_disciplined {order : Uuid} {republishes : Bool} :
    Disciplined req Γ (releaseOnTimeout order republishes) := by
  unfold releaseOnTimeout
  split
  · exact releaseTakerBondsForOrderOrWarn_disciplined
  · exact releaseBondsForOrderOrWarn_disciplined

theorem slashOrReleaseOnTimeout_disciplined (hr : BlamesTimeout req Γ order .timeout) :
    Disciplined req Γ (slashOrReleaseOnTimeout cfg order) := by
  unfold slashOrReleaseOnTimeout
  split
  · exact releaseBondsForOrderOrWarn_disciplined
  next side _ =>
    dsimp only
    split
    · exact releaseOnTimeout_disciplined
    · refine disciplined_query_bind trivial fun bonds hbonds => ?_
      refine orderHasRangeMakerBond_disciplined.seq fun isRange => ?_
      have hread : ∀ b ∈ bonds, .bond b ∈ Γ ∪ bondsRead bonds := fun b hb => mem_bondsRead hb
      refine resolveSlashTarget_bind_disciplined hread releaseOnTimeout_disciplined ?_
      intro target Γ' hΓ' ht
      refine Follows.seq (slashSide_disciplined ht (fun b hb => (hbonds b hb).1)
        (hr.mono (Set.subset_union_left.trans hΓ'))) fun _ => ?_
      refine Follows.forEach fun bond hbond => ?_
      split
      · trivial
      · exact (releaseBond_disciplined (hΓ' (hread bond hbond))).ignore

theorem settleRangeAtClose_disciplined {root : Uuid} {parent : Bond} {children : List Bond}
    (hb : .bond parent ∈ Γ) : Disciplined req Γ (settleRangeAtClose root parent children) := by
  unfold settleRangeAtClose
  split
  · trivial
  next preimage hp =>
    refine settleBondInvoice_bind_disciplined hb hp ?_ trivial
    refine disciplined_timestamp_bind fun now => ?_
    exact disciplined_ask_bind_of (.bond (.closeRange _)) ⟨.inl hb,preimage,hp,.inr rfl⟩
      (fun _ => rfl) fun _ => trivial

theorem resolveRangeMakerBondAtClose_disciplined :
    Disciplined req Γ (resolveRangeMakerBondAtClose order) := by
  refine findMakerBondForOrder_bind_disciplined fun found => ?_
  cases found with
  | none => trivial
  | some parent =>
    dsimp only
    split
    · trivial
    · refine findRangeRootOrder_disciplined.seq fun root => ?_
      have hclose (children : List Bond) : Disciplined req (Γ ∪ bondsRead (some parent).toList)
          (if ((children.filter (·.childOrderId.isSome)).map (·.amountSats)).sum = 0 then
            releaseBond parent
          else settleRangeAtClose root.id parent (children.filter (·.childOrderId.isSome))) := by
        split
        · exact releaseBond_disciplined mem_bondsRead_some
        · exact settleRangeAtClose_disciplined mem_bondsRead_some
      split
      · exact disciplined_query_bind trivial fun children _ => (hclose children).mono
          Set.subset_union_left
      · exact hclose []

theorem resolveRangeMakerBondAtCloseOrWarn_disciplined :
    Disciplined req Γ (resolveRangeMakerBondAtCloseOrWarn order) := by
  refine findMakerBondForOrder_attempt_bind_disciplined (fun found => ?_) fun e => trivial
  cases found with
  | none => trivial
  | some b =>
    dsimp only
    split
    · trivial
    · refine Follows.attempt_seq (disciplined_ask.mpr trivial) fun r => ?_
      cases r with
      | ok _ => exact resolveRangeMakerBondAtClose_disciplined.ignore
      | error e => trivial

theorem collectStranded_disciplined : Disciplined req Γ (collectStranded bonds) := by
  induction bonds generalizing Γ with
  | nil => trivial
  | cons bond rest ih =>
    refine disciplined_query_attempt_bind trivial (fun root _ => ?_) fun e => ?_
    · cases root with
      | none => exact ih.seq fun _ => trivial
      | some root =>
        refine disciplined_query_attempt_bind trivial (fun terminal _ => ?_) fun e => ?_
        · exact ih.seq fun _ => trivial
        · exact ih.seq fun _ => trivial
    · exact ih.seq fun _ => trivial

theorem collectStrandedRangeMakerRoots_disciplined :
    Disciplined req Γ collectStrandedRangeMakerRoots :=
  disciplined_query_bind trivial fun _ _ => collectStranded_disciplined

theorem reconcileStrandedRangeMakerBonds_disciplined :
    Disciplined req Γ reconcileStrandedRangeMakerBonds := by
  refine collectStrandedRangeMakerRoots_disciplined.seq fun roots => ?_
  split
  · trivial
  · refine disciplined_connect_bind (collectStrandedRangeMakerRoots_disciplined.seq fun roots => ?_)
    exact Follows.forEach fun order _ => resolveRangeMakerBondAtClose_disciplined.ignore

theorem childPayoutBlockedByLockedParent_bind_disciplined {f : Bool → M β} (hb : .bond bond ∈ Γ)
    (hblocked : ∀ Γ', Γ ⊆ Γ' → Disciplined req Γ' (f true))
    (hfree : ∀ Γ', Γ ⊆ Γ' → Payable Γ' bond.id → Disciplined req Γ' (f false)) :
    Disciplined req Γ ((childPayoutBlockedByLockedParent bond).bind f) := by
  unfold childPayoutBlockedByLockedParent
  split
  next hnone => exact hfree Γ subset_rfl ⟨bond,hb,rfl,by simp [hnone]⟩
  next p hp =>
    have hn : (Query.findBondById p).need Γ := ⟨bond,hb,hp⟩
    refine disciplined_bind_assoc (disciplined_query_bind hn fun found hfound => ?_)
    cases found with
    | none => exact hblocked _ Set.subset_union_left
    | some parent =>
      have hid : parent.id = p := hfound parent (by simp [Option.toList])
      simp only [pure_eq,ret_bind]
      cases hl : parent.state == .locked with
      | true => exact hblocked _ Set.subset_union_left
      | false =>
        refine hfree _ Set.subset_union_left ⟨bond,.inl hb,rfl,fun q hq => ?_⟩
        rw [hp] at hq
        cases hq
        exact ⟨parent,.inr rfl,hid,by simpa using hl⟩

theorem requestPayoutInvoice_disciplined (hreq : req.paysBonds = true) (hp : Payable Γ bond.id) :
    Disciplined req Γ (requestPayoutInvoice cfg bond) := by
  refine disciplined_timestamp_bind fun now => ?_
  split
  · trivial
  · refine disciplined_query_bind trivial fun order _ => ?_
    split
    · trivial
    · refine disciplined_require_bind.mpr fun _ _ => ?_
      split
      · trivial
      · refine disciplined_runBond_bind hreq fun persisted => ?_
        split
        · trivial
        · exact disciplined_ask.mpr ⟨hreq,hp.mono Set.subset_union_left⟩

theorem slashAfterSuccess_disciplined {attempts : Nat} (hreq : req.paysBonds = true) :
    Disciplined req Γ (slashAfterSuccess bond attempts) := by
  induction attempts with
  | zero => trivial
  | succ attempts ih =>
    refine Follows.attempt_seq (disciplined_ask.mpr hreq) fun r => ?_
    split
    · trivial
    · exact ih

theorem onSendPaymentFailure_disciplined {kind : PaymentFailureKind} (hreq : req.paysBonds = true) :
    Disciplined req Γ (onSendPaymentFailure cfg bond kind) := by
  refine disciplined_runBond_bind hreq fun _ => ?_
  split
  · trivial
  · split
    · trivial
    · refine disciplined_timestamp_bind fun now => ?_
      split
      · exact disciplined_runBond_bind hreq fun _ => trivial
      · exact disciplined_runBond_bind hreq fun _ => trivial

theorem sendToCounterparty_disciplined {hash : Hash} {share : Int} (hreq : req.paysBonds = true)
    (hp : Payable Γ bond.id) : Disciplined req Γ (sendToCounterparty cfg ext bond hash share) := by
  refine disciplined_runBond_bind hreq fun persisted => ?_
  split
  · trivial
  · refine Follows.attempt_seq (disciplined_ask.mpr ⟨hreq,hp⟩) fun r => ?_
    split
    · refine disciplined_ask_bind_of (.lnd (.paymentUpdate _)) trivial (fun _ => rfl) fun out => ?_
      cases out with
      | succeeded => exact slashAfterSuccess_disciplined hreq
      | failed => exact onSendPaymentFailure_disciplined hreq
      | ended => exact onSendPaymentFailure_disciplined hreq
    · exact onSendPaymentFailure_disciplined hreq

theorem payCounterparty_disciplined {invoice : PaymentRequest} {share : Int}
    (hreq : req.paysBonds = true) (hp : Payable Γ bond.id) :
    Disciplined req Γ (payCounterparty cfg ext bond invoice share) := by
  unfold payCounterparty
  split
  · exact onSendPaymentFailure_disciplined hreq
  · split
    · refine Follows.attempt_seq (disciplined_ask.mpr trivial) fun r => ?_
      split
      · exact slashAfterSuccess_disciplined hreq
      · exact onSendPaymentFailure_disciplined hreq
      · trivial
      · exact sendToCounterparty_disciplined hreq hp
    · exact sendToCounterparty_disciplined hreq hp

theorem processOneBond_disciplined (hreq : req.paysBonds = true) (hb : .bond bond ∈ Γ) :
    Disciplined req Γ (processOneBond cfg ext bond) := by
  refine childPayoutBlockedByLockedParent_bind_disciplined hb (fun _ _ => trivial) ?_
  intro Γ' _ hp
  refine disciplined_timestamp_bind fun now => disciplined_require_bind.mpr fun slashedAt _ => ?_
  split
  · exact disciplined_runBond_bind hreq fun _ => trivial
  · refine disciplined_require_bind.mpr fun share _ => ?_
    split
    · exact disciplined_runBond_bind hreq fun _ => trivial
    · split
      · exact requestPayoutInvoice_disciplined hreq hp
      · exact payCounterparty_disciplined hreq hp

theorem runBondPayoutCycle_disciplined (hreq : req.paysBonds = true) :
    Disciplined req Γ (runBondPayoutCycle cfg ext) := by
  refine disciplined_query_bind trivial fun bonds _ => Follows.forEach fun bond hbond => ?_
  exact (processOneBond_disciplined hreq (mem_bondsRead hbond)).ignore

theorem addBondInvoiceAction_disciplined {order : Uuid} {sender : Pubkey}
    {request : Option PaymentRequest} :
    Disciplined req Γ (addBondInvoiceAction cfg ext order sender request) := by
  refine disciplined_require_bind.mpr fun invoice _ => ?_
  have hfind : Disciplined req Γ (findRecoverableBondForRecipient order sender
      ((ext.decodeInvoice invoice).bind (·.2))) := by
    refine disciplined_query_bind trivial fun bonds _ => ?_
    split
    · trivial
    · refine disciplined_query_bind trivial fun found _ => ?_
      split <;> trivial
  have happly (bond : Bond) (now : Int) :
      Disciplined req Γ (applyPayoutInvoice cfg bond invoice now) := by
    unfold applyPayoutInvoice
    split
    · exact disciplined_runBond trivial
    · split
      · exact disciplined_runBond trivial
      · trivial
    · trivial
  refine hfind.seq fun found => ?_
  split
  · trivial
  · refine disciplined_require_bind.mpr fun owed _ => disciplined_ensure_bind.mpr fun _ => ?_
    refine disciplined_check_bind (disciplined_timestamp_bind fun now => ?_)
    exact (happly _ now).seq fun _ => disciplined_ensure

end

end Mostro
