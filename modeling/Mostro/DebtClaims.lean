import Mostro.SmoothRuns
import Mathlib.Data.List.MinMax

set_option autoImplicit false

/-!
The invoice of a winner with several debts on one order.  `find_recoverable_bond_for_recipient`
picks a row before `apply_payout_invoice` decides whether that row takes an invoice, so a debt that
has one already stands in the way of the next.
-/

namespace Mostro

open Interleaving SqlTable

def Externals.amountSats (ext : Externals) (invoice : PaymentRequest) : Option Int :=
  (ext.decodeInvoice invoice).bind (·.2)

/-- The validator's amount check: an invoice without an amount passes for any share. -/
def Externals.validFor (ext : Externals) (invoice : PaymentRequest) (share : Int) : Bool :=
  (ext.amountSats invoice).all (· == share)

/-- The database answers, and the validator decides by the amount. -/
abbrev validatorDecides (ext : Externals) : Requirement := .check
  (fun _ op ch _ _ => match op with
    | .check (.validateInvoice (some invoice) owed _) =>
      ch == if ext.validFor invoice owed then .ok else .fault
    | _ => ch == .ok)
  (fun _ _ _ => true)

/-- A refund is owed to the maker whose bond it returns, any other row to the trade party that did
not post the slashed bond. -/
def Order.owes (o : Order) (b : Bond) (winner : Pubkey) : Bool :=
  if b.isRefund then b.pubkey == winner
  else o.buyerPubkey == some b.pubkey && o.sellerPubkey == some winner
    || o.sellerPubkey == some b.pubkey && o.buyerPubkey == some winner

/-- The open rows of the order that are owed to the sender. -/
def State.debts (s : State) (order : Order) (sender : Pubkey) : List Bond :=
  s.bonds.filter fun b => b.orderId == order.id && (b.state == .pendingPayout || b.state == .failed)
    && (b.slashedReason.isSome && order.owes b sender)

/-- The row can take an invoice: it has none yet, or its payout failed inside the claim window. -/
def Bond.awaitsInvoice (cfg : Settings) (now : Int) (b : Bond) : Bool :=
  ((b.state == .pendingPayout && b.payoutInvoice.isNone)
    || (b.state == .failed && b.slashedAt.any fun t => decide (now - t < claimWindowSeconds cfg)))
  && (counterpartyShareSats b).any fun share => decide (0 < share)

def Externals.meantFor (ext : Externals) (invoice : PaymentRequest) (b : Bond) : Bool :=
  (ext.amountSats invoice).all fun sats => counterpartyShareSats b == some sats

/-- A time of `slashed_at`; `NULL` is before all others. -/
def SlashTime : Type := WithBot Int

instance : LinearOrder SlashTime := @WithBot.linearOrder Int Int.instLinearOrder

def Bond.slashTime (b : Bond) : SlashTime :=
  b.slashedAt.elim (⊥ : WithBot Int) fun t => (t : WithBot Int)

def State.latestDebt (s : State) (ext : Externals) (order : Order) (sender : Pubkey)
    (invoice : PaymentRequest) : Option Bond :=
  ((s.debts order sender).filter (ext.meantFor invoice)).argmax Bond.slashTime

/-- The last slashed of the debts the invoice may be meant for takes an invoice. -/
def State.unshadowed (cfg : Settings) (ext : Externals) (s : State) (order : Order)
    (sender : Pubkey) (invoice : PaymentRequest) : Bool :=
  (s.latestDebt ext order sender invoice).any (·.awaitsInvoice cfg s.now)

theorem Bond.awaitsInvoice_share {cfg : Settings} {now : Int} {b : Bond}
    (h : b.awaitsInvoice cfg now) : ∃ share, counterpartyShareSats b = some share ∧ 0 < share := by
  simp only [Bond.awaitsInvoice,Bool.and_eq_true,Option.any_eq_true] at h
  obtain ⟨-,share,hshare,hpos⟩ := h
  exact ⟨share,hshare,by simpa using hpos⟩

theorem meantFor_eq_validFor {ext : Externals} {invoice : PaymentRequest} {b : Bond} {share : Int}
    (hshare : counterpartyShareSats b = some share) :
    ext.meantFor invoice b = ext.validFor invoice share := by
  simp only [Externals.meantFor,Externals.validFor,hshare]
  congr 1
  funext sats
  rw [Bool.eq_iff_iff]
  simp only [beq_iff_eq,Option.some.injEq]
  exact eq_comm

theorem owes_iff {o : Order} {b : Bond} {k : Pubkey} :
    (resolvePayoutRecipient o b == some k) = o.owes b k := by
  unfold resolvePayoutRecipient Order.owes
  split
  · rw [Bool.eq_iff_iff]
    simp
  · unfold resolveRecipient
    rw [Bool.eq_iff_iff]
    cases hb : o.buyerPubkey with
    | none => simp
    | some buyer =>
      cases hs : o.sellerPubkey with
      | none => simp
      | some seller => grind

theorem find?_orderedInsert {α : Type} {r : α → α → Prop} [DecidableRel r] [IsTrans α r]
    (p : α → Bool) (a : α) {l : List α} (hl : l.Pairwise r) : (l.orderedInsert r a).find? p =
      if p a then (l.find? p).elim (some a) fun c => if r a c then some a else some c
      else l.find? p := by
  induction l with
  | nil => by_cases hp : p a = true <;> simp [hp]
  | cons b l ih =>
    obtain ⟨hb,hl⟩ := List.pairwise_cons.mp hl
    by_cases hab : r a b
    · rw [List.orderedInsert_cons_of_le r l hab,List.find?_cons]
      by_cases hp : p a = true
      · cases hc : (b :: l).find? p with
        | none => simp [hp]
        | some c =>
          have hac : r a c := by
            rcases List.mem_cons.mp (List.mem_of_find?_eq_some hc) with rfl | hmem
            · exact hab
            · exact IsTrans.trans a b c hab (hb c hmem)
          simp [hp,hac]
      · simp [hp]
    · rw [List.orderedInsert_of_not_le r l hab,List.find?_cons,List.find?_cons,ih hl]
      by_cases hp : p b = true <;> simp [hp,hab]

theorem find?_insertionSort {α β : Type} [LinearOrder β] {f : α → β} (r : α → α → Prop)
    [DecidableRel r] (hr : ∀ a b, r a b ↔ f b ≤ f a) (p : α → Bool) (l : List α) :
    (l.insertionSort r).find? p = (l.filter p).argmax f := by
  have htrans : IsTrans α r := ⟨fun a b c hab hbc => by
    rw [hr] at *
    exact hbc.trans hab⟩
  have htotal : Std.Total r := ⟨fun a b => by
    rw [hr,hr]
    exact le_total _ _⟩
  induction l with
  | nil => rfl
  | cons a l ih =>
    rw [List.insertionSort_cons,find?_orderedInsert p a (List.pairwise_insertionSort r l),ih,
      List.filter_cons]
    split
    · rw [List.argmax_cons]
      cases (l.filter p).argmax f with
      | none => rfl
      | some c =>
        by_cases h : f a < f c
        · simp [h,hr,not_le.mpr h]
        · simp [h,hr,not_lt.mp h]
    · rfl

theorem slashedNoEarlier_iff (a b : Bond) :
    slashedNoEarlier a b = true ↔ b.slashTime ≤ a.slashTime := by
  change _ ↔ (b.slashedAt.elim ⊥ fun t => (t : WithBot Int)) ≤
    (a.slashedAt.elim ⊥ fun t => (t : WithBot Int))
  unfold slashedNoEarlier
  cases a.slashedAt <;> cases b.slashedAt <;> simp

theorem recoverableBond_eq {ext : Externals} {s : State} {order : Order} {sender : Pubkey}
    {invoice : PaymentRequest} {b : Bond} (hb : b ∈ s.debts order sender)
    (hmeant : ext.meantFor invoice b) :
    recoverableBond order ((Query.findRecoverableBonds order.id).run s) sender
        (ext.amountSats invoice) = s.latestDebt ext order sender invoice := by
  set owed : List Bond := ((Query.findRecoverableBonds order.id).run s : List Bond).filter fun b =>
    b.slashedReason.isSome && resolvePayoutRecipient order b == some sender with howed
  have hmem : b ∈ owed := by
    simp only [State.debts,List.mem_filter,Bool.and_eq_true] at hb
    simp only [howed,Query.run,bySlashedAtDesc,List.mem_filter,List.mem_insertionSort,
      Bool.and_eq_true,owes_iff]
    exact ⟨⟨hb.1,hb.2.1⟩,hb.2.2⟩
  have hpick : owed.find? (ext.meantFor invoice) = s.latestDebt ext order sender invoice := by
    rw [howed,List.find?_filter]
    refine (find?_insertionSort _ slashedNoEarlier_iff _ _).trans ?_
    simp only [State.latestDebt,State.debts,List.filter_filter,owes_iff]
    congr 1
    refine List.filter_congr fun x _ => ?_
    rw [Bool.eq_iff_iff]
    simp only [Bool.and_eq_true,Bool.or_eq_true,beq_iff_eq,decide_eq_true_eq]
    tauto
  rw [← hpick]
  change (if 1 < owed.length then (owed.find? fun b =>
      (ext.amountSats invoice).isSome && counterpartyShareSats b == ext.amountSats invoice).or
        owed.head? else owed.head?) = _
  cases hamount : ext.amountSats invoice with
  | none =>
    have hall : ext.meantFor invoice = fun _ => true := by
      funext b
      simp [Externals.meantFor,hamount]
    have hnone : ∀ bonds : List Bond, bonds.find? (fun _ => false) = none := by simp
    cases owed <;> simp [hall,hnone]
  | some sats =>
    have hsame : ext.meantFor invoice = fun b => counterpartyShareSats b == some sats := by
      funext b
      simp [Externals.meantFor,hamount]
    simp only [Option.isSome_some,Bool.true_and,← hsame]
    cases hfind : owed.find? (ext.meantFor invoice) with
    | none => exact absurd hmeant (by simpa using List.find?_eq_none.mp hfind b hmem)
    | some d =>
      split
      · rfl
      next hone =>
        -- a single debt is the one the invoice is meant for
        obtain ⟨c,hc⟩ : ∃ c, owed = [c] := by
          refine List.length_eq_one_iff.mp ?_
          have := List.length_pos_of_mem hmem
          omega
        have hd := List.mem_of_find?_eq_some hfind
        rw [hc,List.mem_singleton] at hd
        simp [hc,hd]

section

variable {cfg : Settings} {ext : Externals} {l : Label} {s : State} {order : Order}
variable {sender : Pubkey} {invoice : PaymentRequest} {b : Bond} {α : Type}

/-- The row with the id has the invoice and is to be paid. -/
def State.InvoiceStored (s : State) (id : Uuid) (invoice : PaymentRequest) : Prop :=
  ∃ b ∈ s.bonds, b.id = id ∧ b.payoutInvoice = some invoice ∧ b.state = .pendingPayout

theorem validatorDecides_query {q : Query} {f : q.Out → M α}
    {Q : Except MostroError α → State → Prop}
    (h : Smooth (validatorDecides ext) cfg ext l (f (q.run s)) Q (s.noting l.tid q)) :
    Smooth (validatorDecides ext) cfg ext l ((query q).bind f) Q s :=
  solo_query_bind trivial (fun hd => by simp [System.Demand.check] at hd) h

theorem findRecoverable_smooth {f : Option Bond → M α} {Q : Except MostroError α → State → Prop}
    (hrow : (s.order? order.id).map (·.order) = some order) (hb : b ∈ s.debts order sender)
    (hmeant : ext.meantFor invoice b)
    (h : ∀ reads inHand, Smooth (validatorDecides ext) cfg ext l
      (f (s.latestDebt ext order sender invoice)) Q { s with reads, inHand }) :
    Smooth (validatorDecides ext) cfg ext l
      ((findRecoverableBondForRecipient order.id sender (ext.amountSats invoice)).bind f) Q s := by
  refine sat_bind_assoc (validatorDecides_query ?_)
  have hopen : ((Query.findRecoverableBonds order.id).run s : List Bond).isEmpty = false := by
    refine List.isEmpty_eq_false_iff_exists_mem.mpr ⟨b,?_⟩
    simp only [State.debts,List.mem_filter,Bool.and_eq_true] at hb
    simp only [Query.run,bySlashedAtDesc,List.mem_insertionSort,List.mem_filter,Bool.and_eq_true]
    exact ⟨hb.1,hb.2.1⟩
  rw [if_neg (by simp [hopen])]
  refine sat_bind_assoc (validatorDecides_query ?_)
  have hfound : (Query.orderById order.id).run (s.noting l.tid (.findRecoverableBonds order.id))
      = some order := hrow
  rw [hfound]
  have hpick := recoverableBond_eq hb hmeant
  show Smooth _ _ _ _ (f (recoverableBond order _ sender (ext.amountSats invoice))) _ _
  rw [hpick]
  exact h _ _

def storing (d : Bond) (invoice : PaymentRequest) : BondUpdate :=
  if d.state = .failed then .resurrect d.id invoice else .storePayoutInvoice d.id invoice

theorem storing_affected {d : Bond} (hids : (s.bonds.map (·.id)).Nodup) (hd : d ∈ s.bonds) :
    0 < affected ((storing d invoice).selects s) s.bonds ↔
      d.state = .failed ∨ d.state = .pendingPayout ∧ d.payoutInvoice = none := by
  rw [affected_pos]
  constructor
  · rintro ⟨b,hb,hsel⟩
    obtain rfl : b = d := by
      refine List.inj_on_of_nodup_map hids hb hd ?_
      rw [storing] at hsel
      split at hsel <;> simp_all [BondUpdate.selects,BondUpdate.target]
    rw [storing] at hsel
    split at hsel <;> simp_all [BondUpdate.selects,BondUpdate.guard]
  · intro h
    refine ⟨d,hd,?_⟩
    rw [storing]
    split <;> simp_all [BondUpdate.selects,BondUpdate.guard,BondUpdate.target]

theorem storing_stores {d : Bond} (hd : d ∈ s.bonds)
    (hsel : (storing d invoice).selects s d = true)
    (hstate : d.state = .failed ∨ d.state = .pendingPayout) :
    ((storing d invoice).run s).1.InvoiceStored d.id invoice := by
  refine ⟨(storing d invoice).set s d,mem_updateWhere.2 ⟨d,hd,if_pos hsel⟩,?_⟩
  rw [storing]
  split <;> simp_all [BondUpdate.set]

theorem apply_smooth {d : Bond} (hids : (s.bonds.map (·.id)).Nodup) (hd : d ∈ s.bonds)
    (hstate : d.state = .failed ∨ d.state = .pendingPayout)
    (hshare : (counterpartyShareSats d).any fun share => decide (0 < share)) :
    Smooth (validatorDecides ext) cfg ext l
      ((applyPayoutInvoice cfg d invoice s.now).bind fun applied =>
        ensure (applied != 0) (.cantDo .notAllowedByStatus))
      (fun r s' => (d.awaitsInvoice cfg s.now = true → r = .ok () ∧ s'.InvoiceStored d.id invoice) ∧
        (d.awaitsInvoice cfg s.now = false → ∃ e, r = .error e)) s := by
  -- the write of the row's state is made, and says whether it found the row
  have hwrite : Smooth (validatorDecides ext) cfg ext l
      ((runBond (storing d invoice)).bind fun applied =>
        ensure (applied != 0) (.cantDo .notAllowedByStatus))
      (fun r s' => (d.state = .failed ∨ d.payoutInvoice = none →
          r = .ok () ∧ s'.InvoiceStored d.id invoice) ∧
        (¬ (d.state = .failed ∨ d.payoutInvoice = none) → ∃ e, r = .error e)) s := by
    refine solo_ask_bind trivial fun ch hch => ?_
    obtain rfl : ch = .ok := by simpa [System.Demand.check] using hch
    refine ⟨fun n hn => ?_,fun e he => by cases he⟩
    obtain rfl : ((storing d invoice).run s).2 = n := by simpa [exec,orFault,BondStmt.exec] using hn
    have haffected : 0 < ((storing d invoice).run s).2 ↔ _ := storing_affected hids hd
    rw [ensure]
    split
    next hpos =>
      have hpos := haffected.mp (Nat.pos_of_ne_zero (by simpa using hpos))
      have hsel : (storing d invoice).selects s d = true := by
        rw [storing]
        split <;> simp_all [BondUpdate.selects,BondUpdate.guard,BondUpdate.target]
      exact ⟨fun _ => ⟨rfl,storing_stores hd hsel hstate⟩,fun h => absurd (by tauto) h⟩
    next hzero =>
      have hzero : ¬ 0 < ((storing d invoice).run s).2 := by simpa using hzero
      exact ⟨fun h => absurd (haffected.mpr (by tauto)) hzero,fun _ => ⟨_,rfl⟩⟩
  rcases hstate with hstate | hstate
  · simp only [applyPayoutInvoice,hstate]
    split
    next hwindow =>
      rw [storing,if_pos hstate] at hwrite
      refine hwrite.mono fun r s' h => ?_
      exact ⟨fun _ => h.1 (.inl hstate),fun ha => by simp_all [Bond.awaitsInvoice]⟩
    next hwindow =>
      exact ⟨fun ha => by simp_all [Bond.awaitsInvoice],fun _ => ⟨_,rfl⟩⟩
  · simp only [applyPayoutInvoice,hstate]
    rw [storing,if_neg (by simp [hstate])] at hwrite
    refine hwrite.mono fun r s' h => ?_
    simp only [hstate,reduceCtorEq,false_or] at h
    exact ⟨fun ha => h.1 (by simp_all [Bond.awaitsInvoice]),
      fun ha => h.2 fun hnone => by simp_all [Bond.awaitsInvoice]⟩

/-- A submission goes to the last slashed of the debts it may be meant for, and is stored exactly
when that row awaits an invoice. -/
theorem submission_smooth (cfg : Settings) (l : Label) (hids : (s.bonds.map (·.id)).Nodup)
    (hrow : (s.order? order.id).map (·.order) = some order) (hb : b ∈ s.debts order sender)
    (hmeant : ext.meantFor invoice b) :
    ∃ d ∈ s.debts order sender, s.latestDebt ext order sender invoice = some d ∧
      Smooth (validatorDecides ext) cfg ext l
        (addBondInvoiceAction cfg ext order.id sender (some invoice))
        (fun r s' =>
          (d.awaitsInvoice cfg s.now = true → r = .ok () ∧ s'.InvoiceStored d.id invoice) ∧
          (d.awaitsInvoice cfg s.now = false → ∃ e, r = .error e)) s := by
  obtain ⟨d,hlatest⟩ : ∃ d, s.latestDebt ext order sender invoice = some d := by
    cases h : s.latestDebt ext order sender invoice with
    | some d => exact ⟨d,rfl⟩
    | none =>
      have := List.mem_filter.mpr ⟨hb,hmeant⟩
      rw [List.argmax_eq_none.mp h] at this
      cases this
  obtain ⟨hdebt,hfor⟩ := List.mem_filter.mp (List.argmax_mem hlatest)
  have hopen := hdebt
  simp only [State.debts,List.mem_filter,Bool.and_eq_true,Bool.or_eq_true,beq_iff_eq] at hopen
  refine ⟨d,hdebt,hlatest,findRecoverable_smooth hrow hb hmeant fun reads inHand => ?_⟩
  rw [hlatest]
  refine sat_require_bind (fun share hshare => ?_) fun hnone => ?_
  · refine sat_ensure_bind (fun hpos => ?_) fun hneg => ?_
    · have hvalid : ext.validFor invoice share = true := meantFor_eq_validFor hshare ▸ hfor
      refine solo_ask_bind trivial fun ch hch => ?_
      obtain rfl : ch = .ok := by simpa [System.Demand.check,hvalid] using hch
      refine ⟨fun _ _ => ?_,fun e he => by cases he⟩
      refine solo_ask_bind trivial fun ch hch => ⟨fun now hnow => ?_,fun e he => by cases he⟩
      cases hnow
      exact apply_smooth (s := { s with reads, inHand }) hids hopen.1 hopen.2.1.2.symm
        (by simpa [hshare] using hpos)
    · refine ⟨fun ha => ?_,fun _ => ⟨_,rfl⟩⟩
      obtain ⟨_,hshare',hpos⟩ := Bond.awaitsInvoice_share ha
      cases hshare.symm.trans hshare'
      exact absurd hpos (by simpa using hneg)
  · refine ⟨fun ha => ?_,fun _ => ⟨_,rfl⟩⟩
    obtain ⟨_,hshare,-⟩ := Bond.awaitsInvoice_share ha
    cases hnone.symm.trans hshare

end

theorem validatorDecides_total (ext : Externals) (l : Label) (op : Op) (s : State) :
    ∃ ch, (validatorDecides ext).onOp l op ch [l] s := by
  simp only [System.Demand.check]
  split
  next invoice owed _ => exact ⟨if ext.validFor invoice owed then .ok else .fault,by simp⟩
  · exact ⟨.ok,by simp⟩

/-- A winner with an open debt and an invoice valid for its share: the submission is stored on a
debt that awaits an invoice exactly when no other row stands before it. -/
theorem submission_stored_iff (cfg : Settings) (ext : Externals) (l : Label) (s : State)
    (hids : (s.bonds.map (·.id)).Nodup) (order : Order)
    (hrow : (s.order? order.id).map (·.order) = some order) (sender : Pubkey)
    (invoice : PaymentRequest) (b : Bond) (hb : b ∈ s.debts order sender)
    (hawaits : b.awaitsInvoice cfg s.now)
    (hvalid : (counterpartyShareSats b).any (ext.validFor invoice)) :
    (∀ r s', (daemon cfg ext).Alone (validatorDecides ext) l
        (addBondInvoiceAction cfg ext order.id sender (some invoice)) s r s' →
      r = .ok () ∧ ∃ d ∈ s.debts order sender, d.awaitsInvoice cfg s.now ∧
        s'.InvoiceStored d.id invoice) ↔
      s.unshadowed cfg ext order sender invoice := by
  obtain ⟨share,hshare,-⟩ := Bond.awaitsInvoice_share hawaits
  have hmeant : ext.meantFor invoice b := by
    rw [meantFor_eq_validFor hshare]
    simpa [hshare] using hvalid
  obtain ⟨d,hdebt,hlatest,hrun⟩ := submission_smooth cfg l hids hrow hb hmeant
  rw [State.unshadowed,hlatest,Option.any_some]
  constructor
  · intro h
    obtain ⟨r,s',hr⟩ := System.exists_alone (S := daemon cfg ext)
      (validatorDecides_total ext l) (addBondInvoiceAction cfg ext order.id sender (some invoice)) s
    cases hd : d.awaitsInvoice cfg s.now with
    | true => rfl
    | false =>
      obtain ⟨e,he⟩ := (hrun.alone hr).2 hd
      cases he.symm.trans (h r s' hr).1
  · intro hd r s' hr
    have hstored := (hrun.alone hr).1 hd
    exact ⟨hstored.1,d,hdebt,hd,hstored.2⟩

def twoDebtsOrder : Order :=
  { id := 1, kind := .sell, status := .canceled, creatorPubkey := 10, sellerPubkey := some 10,
    buyerPubkey := some 20 }

/-- A root order with two debts of 500 to its maker: the share of a slashed taker bond, and the
refund of the maker bond, slashed later, which may have an invoice already. -/
def twoDebts (refundInvoice : Option PaymentRequest) : State where
  now := 5000
  nextId := 9
  orders := [{ order := twoDebtsOrder }]
  bonds := [
    { id := 2, orderId := 1, pubkey := 20, role := .taker, amountSats := 500,
      state := .pendingPayout, slashedReason := some .lostDispute, nodeShareSats := some 0,
      slashedAt := some 3000 },
    { id := 3, orderId := 1, parentBondId := some 5, pubkey := 10, role := .maker,
      amountSats := 500, state := .pendingPayout, slashedReason := some .lostDispute,
      nodeShareSats := some 0, slashedAt := some 4000, payoutInvoice := refundInvoice }]

theorem submission_stored_on_refund :
    (∀ r s', (daemon plainSettings plainExternals).Alone (validatorDecides plainExternals)
        ⟨8,.message (.addBondInvoice 1 10 (some 88))⟩
        (addBondInvoiceAction plainSettings plainExternals 1 10 (some 88)) (twoDebts none) r s' →
      r = .ok () ∧ ∃ d ∈ (twoDebts none).debts twoDebtsOrder 10,
        d.awaitsInvoice plainSettings (twoDebts none).now ∧ s'.InvoiceStored d.id 88) ↔
      (twoDebts none).unshadowed plainSettings plainExternals twoDebtsOrder 10 88 :=
  submission_stored_iff plainSettings plainExternals _ (twoDebts none) (by decide) twoDebtsOrder
    (by decide) 10 88 ((twoDebts none).bonds.head (by decide)) (by decide +kernel)
    (by decide +kernel) (by decide +kernel)

/-- Once the refund has its invoice, the taker's share cannot be claimed. -/
theorem claimable_debt_shadowed :
    (∃ b ∈ (twoDebts (some 77)).debts twoDebtsOrder 10,
      b.awaitsInvoice plainSettings (twoDebts (some 77)).now ∧
        (counterpartyShareSats b).any (plainExternals.validFor 88)) ∧
      ∃ s', (daemon plainSettings plainExternals).Alone (validatorDecides plainExternals)
        ⟨8,.message (.addBondInvoice 1 10 (some 88))⟩
        (addBondInvoiceAction plainSettings plainExternals 1 10 (some 88)) (twoDebts (some 77))
        (.error (.cantDo .notAllowedByStatus)) s' := by
  refine ⟨by decide +kernel,?_⟩
  have hplay : ((daemon plainSettings plainExternals).playAlone (validatorDecides plainExternals)
      ⟨8,.message (.addBondInvoice 1 10 (some 88))⟩ (List.replicate 6 .ok)
      (addBondInvoiceAction plainSettings plainExternals 1 10 (some 88)) (twoDebts (some 77))).map
        (·.1) = some (.error (.cantDo .notAllowedByStatus)) := by decide +kernel
  obtain ⟨⟨_,s'⟩,hrun,rfl⟩ := Option.map_eq_some_iff.1 hplay
  exact ⟨s',System.alone_of_play hrun⟩

end Mostro
