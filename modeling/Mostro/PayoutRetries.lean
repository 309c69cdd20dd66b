import Mostro.CapturedFunds
import Mostro.HandlerOperations
import Mostro.TaskContracts

set_option autoImplicit false

/-!
The retry budget of a bond payout.  `payout_attempts` is written from the copy of the row that a
payout pass fetched, after a payment for its invoice was sent and failed, and also where a lookup
finds that an earlier payment has failed, which sends nothing.  Where each such lookup finds a
payment that was not counted yet, the counter of every row is covered by the payments that were sent
for its invoice.
-/

namespace Mostro

open Interleaving SqlTable

variable {ch : Choice} {inv : PaymentRequest} {op : Op} {id : Uuid} {st : BondStmt}
variable {ls : List Label} {x : Bond}
variable {tid : Nat} {d : Hash × Option Int} {u : BondUpdate}

/-- How often `send_payment` was called for a bond row with an invoice of this hash. -/
def State.sendsFor (s : State) (row : Uuid) (h : Hash) : Nat := s.sends.count (.bond row,h)

theorem State.sendsFor_mono {s s' : State} (h : s.sends <:+ s'.sends) (row : Uuid) (hash : Hash) :
    s.sendsFor row hash ≤ s'.sendsFor row hash :=
  h.sublist.count_le _

/-- At least `n` payments were sent for the invoice of the row, if it can be decoded. -/
def Bond.SentTimes (ext : Externals) (n : Int) (b : Bond) (s : State) : Prop :=
  ∀ inv d, b.payoutInvoice = some inv → ext.decodeInvoice inv = some d → n ≤ s.sendsFor b.id d.1

structure Bond.Counted (ext : Externals) (b : Bond) (s : State) : Prop where
  unused : b.payoutInvoice = none → b.payoutAttempts ≤ 0
  sent : b.SentTimes ext b.payoutAttempts s

section

variable {ext : Externals} {b : Bond} {s s' : State} {n m : Int}

theorem Bond.SentTimes.grows (hs : s.sends <:+ s'.sends) (h : b.SentTimes ext n s) :
    b.SentTimes ext n s' := by
  intro inv d hinv hd
  have hle := State.sendsFor_mono hs b.id d.1
  exact (h inv d hinv hd).trans (by exact_mod_cast hle)

theorem Bond.sentTimes_of_nonpos (hn : n ≤ 0) : b.SentTimes ext n s :=
  fun _ _ _ _ => hn.trans (Int.natCast_nonneg _)

theorem Bond.Counted.grows (hs : s.sends <:+ s'.sends) (h : b.Counted ext s) : b.Counted ext s' :=
  ⟨h.unused,h.sent.grows hs⟩

theorem Bond.counted_of_nonpos (hn : b.payoutAttempts ≤ 0) : b.Counted ext s :=
  ⟨fun _ => hn,sentTimes_of_nonpos hn⟩

theorem exec_send_sends {payee : Payee} {h : Hash} {stamp : Int} :
    (exec ext tid (.lnd (.sendPaymentV2 payee h stamp)) ch s).1.sends = (payee,h) :: s.sends := by
  simp only [exec,LndCall.exec]
  split
  · split <;> rfl
  all_goals rfl

theorem Bond.SentTimes.send (hinv : b.payoutInvoice = some inv)
    (hd : ext.decodeInvoice inv = some d) (h : b.SentTimes ext n s) :
    b.SentTimes ext (n + 1) (exec ext tid (.lnd (.sendPaymentV2 (.bond b.id) d.1 0)) ch s).1 := by
  intro inv' d' hinv' hd'
  obtain rfl : inv = inv' := Option.some.inj (hinv.symm.trans hinv')
  obtain rfl : d = d' := Option.some.inj (hd.symm.trans hd')
  have hle : n ≤ s.sends.count (.bond b.id,d.1) := h inv d hinv hd
  rw [State.sendsFor,exec_send_sends,List.count_cons_self]
  push_cast
  omega

end

/-- Where a failed payment of a bond is booked: the counter stays covered, and an invoice is given
up after as many payments as there are retries. -/
def BooksFailures (cfg : Settings) (ext : Externals) (op : Op) (s : State) : Prop :=
  match op with
  | .bond (.run (.payoutAttempts id n)) =>
      ∀ r ∈ s.bonds, r.id = id → r.state = .pendingPayout →
        ({ r with payoutAttempts := n } : Bond).Counted ext s
  | .bond (.run (.rearmInvoiceRequest id)) | .bond (.run (.markFailed id)) =>
      ∀ r ∈ s.bonds, r.id = id → r.state = .pendingPayout → r.SentTimes ext (maxRetries cfg) s
  | _ => True

def Op.booksFailure : Op → Bool
  | .bond (.run (.payoutAttempts _ _)) => true
  | .bond (.run (.rearmInvoiceRequest _)) => true
  | .bond (.run (.markFailed _)) => true
  | _ => false

def Op.givesUp (id : Uuid) : Op → Bool
  | .bond (.run (.rearmInvoiceRequest x)) => x == id
  | .bond (.run (.markFailed x)) => x == id
  | _ => false

/-- The statements that change what a pass goes by: they give up the invoice, or write the counter
or the hash of the payment. -/
def Op.touches (id : Uuid) : Op → Bool
  | .bond (.run (.payoutAttempts x _)) => x == id
  | .bond (.run (.persistPaymentHash x _ _)) => x == id
  | op => op.givesUp id

theorem booksFailures_of_not {cfg : Settings} {ext : Externals} {s : State}
    (h : op.booksFailure = false) : BooksFailures cfg ext op s := by
  unfold BooksFailures
  split
  · cases h
  · cases h
  · cases h
  · trivial

theorem Op.givesUp_of_not (h : op.booksFailure = false) : op.givesUp id = false := by
  unfold Op.givesUp
  split
  · cases h
  · cases h
  · rfl

theorem Op.givesUp_of_untouched (h : op.touches id = false) : op.givesUp id = false := by
  unfold Op.touches at h
  split at h
  · rfl
  · rfl
  · exact h

theorem touches_need {req : Request} {Γ : Set Fact} (hn : op.need req Γ) (h : op.touches id = true) :
    req.paysBonds = true := by
  unfold Op.touches at h
  split at h
  · exact hn
  · exact hn
  · unfold Op.givesUp at h
    split at h
    · exact hn
    · exact hn
    · cases h

theorem givesUp_need {req : Request} {Γ : Set Fact} (hn : op.need req Γ) (h : op.givesUp id = true) :
    req.paysBonds = true := by
  unfold Op.givesUp at h
  split at h
  · exact hn
  · exact hn
  · cases h

theorem books_of_need {cfg : Settings} {ext : Externals} {req : Request} {Γ : Set Fact} {s : State}
    (hn : op.need req Γ) (h : req.paysBonds = true → BooksFailures cfg ext op s) :
    BooksFailures cfg ext op s := by
  unfold BooksFailures at h ⊢
  split
  · exact h hn
  · exact h hn
  · exact h hn
  · trivial

section

variable {cfg : Settings} {ext : Externals} {req : Request} {Γ : Set Fact} {s : State} {b : Bond}

theorem inserted_counted (hn : st.need req Γ) (hb : b ∈ st.inserted s) : b.Counted ext s := by
  cases st with
  | create x =>
    rw [List.mem_singleton.mp hb]
    exact Bond.counted_of_nonpos hn.2.2.2.2.1.2.2.le
  | run u => cases hb
  | insertSliceSlash v =>
    simp only [BondStmt.inserted] at hb
    split at hb
    · rw [List.mem_singleton.mp hb]
      exact Bond.counted_of_nonpos le_rfl
    · cases hb
  | closeRange v =>
    simp only [BondStmt.inserted] at hb
    split at hb
    · rw [List.mem_singleton.mp hb]
      exact Bond.counted_of_nonpos le_rfl
    · cases hb

theorem bondUpdate_counted (hpre : BooksFailures cfg ext (.bond (.run u)) s) (hb : b ∈ s.bonds)
    (hsel : u.selects s b = true) (hu : ∀ read row, u ≠ .update read row)
    (h : b.state ≠ .released → b.Counted ext s) : (u.set s b).Counted ext s := by
  have hg := bondUpdate_guard hsel
  have hid := bondUpdate_id hsel
  -- the statements of the payout cycle find the row in the state they ask for
  have hin {st : BondState} (hst : b.state = st) (hne : st ≠ .released) : b.Counted ext s :=
    h (hst ▸ hne)
  cases u with
  | update read row => exact absurd rfl (hu read row)
  | lockTaker id order t =>
    obtain ⟨hunused,hsent⟩ := hin (by simpa using (Bool.and_eq_true_iff.mp hg).1) (by decide)
    exact ⟨hunused,hsent⟩
  | payoutAttempts id n => exact hpre b hb hid (beq_iff_eq.mp hg)
  | rearmInvoiceRequest id => exact Bond.counted_of_nonpos le_rfl
  | resurrect id invoice => exact Bond.counted_of_nonpos le_rfl
  | storePayoutInvoice id invoice =>
    obtain ⟨hst,hnone⟩ := Bool.and_eq_true_iff.mp hg
    have hcounted := hin (beq_iff_eq.mp hst) (by decide)
    have hle : b.payoutAttempts ≤ 0 := hcounted.unused (Option.isNone_iff_eq_none.mp hnone)
    exact Bond.counted_of_nonpos hle
  | forfeit id t =>
    obtain ⟨hunused,hsent⟩ := hin (beq_iff_eq.mp (Bool.and_eq_true_iff.mp hg).1) (by decide)
    exact ⟨hunused,hsent⟩
  | _ =>
    obtain ⟨hunused,hsent⟩ := hin (beq_iff_eq.mp hg) (by decide)
    exact ⟨hunused,hsent⟩

theorem RangeClose.keepRow_counted (v : RangeClose) (h : b.Counted ext s) :
    (v.keepRow b).Counted ext s := by
  obtain ⟨hunused,hsent⟩ := h
  unfold RangeClose.keepRow
  dsimp only
  split <;> split <;> exact ⟨hunused,hsent⟩

theorem RangeClose.keepRow_released (v : RangeClose) (h : b.state = .released) :
    v.keepRow b = b := by
  simp [RangeClose.keepRow,h]

def RetriesSent (ext : Externals) (s : State) : Prop :=
  ∀ b ∈ s.bonds, b.state ≠ .released → b.Counted ext s

theorem RetriesSent.bondStmt (hn : st.need req Γ) (hpre : BooksFailures cfg ext (.bond st) s)
    (h : RetriesSent ext s) (hb : b ∈ (st.exec s).1.bonds) :
    b.Counted ext s ∨ b.state = .released ∧ (b ∈ s.bonds ∨
      ∃ q ∈ s.bonds, ∃ read row, st = .run (.update read row) ∧
        b = BondUpdate.set s q (.update read row)) := by
  have hstays {q : Bond} (hq : q ∈ s.bonds) : q.Counted ext s ∨ q.state = .released ∧ (q ∈ s.bonds ∨
      ∃ q' ∈ s.bonds, ∃ read row, st = .run (.update read row) ∧
        q = BondUpdate.set s q' (.update read row)) := by
    by_cases hrel : q.state = .released
    · exact .inr ⟨hrel,.inl hq⟩
    · exact .inl (h q hq hrel)
  rw [bondStmt_bonds] at hb
  rcases List.mem_append.mp hb with hb | hb
  · obtain ⟨q,hq,rfl⟩ := List.mem_map.mp hb
    cases st with
    | run u =>
      simp only [BondStmt.rewrite]
      split
      next hsel =>
        by_cases hu : ∃ read row, u = .update read row
        · obtain ⟨read,row,rfl⟩ := hu
          obtain ⟨t,rfl⟩ := hn.2.2.1
          exact .inr ⟨rfl,.inr ⟨q,hq,read,_,rfl,rfl⟩⟩
        · exact .inl (bondUpdate_counted hpre hq hsel
            (fun read row heq => hu ⟨read,row,heq⟩) (h q hq))
      · exact hstays hq
    | closeRange v =>
      simp only [BondStmt.rewrite]
      split
      · by_cases hrel : q.state = .released
        · rw [v.keepRow_released hrel]
          exact hstays hq
        · exact .inl (v.keepRow_counted (h q hq hrel))
      · exact hstays hq
    | _ => exact hstays hq
  · exact .inl (inserted_counted hn hb)

theorem RetriesSent.effect {l : Label} {s' : State} (hk : Knowing l op ls s)
    (hpre : l.req.paysBonds = true → BooksFailures cfg ext op s) (he : Effect l.tid op s s')
    (h : RetriesSent ext s) : RetriesSent ext s' := by
  have hsame (hb : s'.bonds = s.bonds) : RetriesSent ext s' := fun b hb' hst =>
    (h b (hb ▸ hb') hst).grows he.logs.sends
  rcases he.rows with hrows | ⟨st,rfl,hs'⟩ | ⟨st,rfl,hs'⟩
  · exact hsame hrows.bonds
  · exact hsame (by rw [hs',orderStmt_bonds])
  · obtain ⟨Γ,hn,hΓ⟩ := hk.need
    intro b hb hst
    rw [hs'] at hb
    have hrow := h.bondStmt hn (books_of_need hn hpre) hb
    exact (hrow.resolve_right fun hrel => hst hrel.1).grows he.logs.sends

end

def BondState.endsPayout : BondState → Bool
  | .released | .slashed | .forfeited => true
  | _ => false

/-- What a pass knows of the payment of a row: its invoice and, until it works on the row, the
counter and the hash of the payment. -/
def Bond.PassKnows (whole : Bool) (b x : Bond) : Prop :=
  ∀ inv, b.payoutInvoice = some inv → x.payoutInvoice = some inv ∧ (whole = true →
    x.payoutAttempts = b.payoutAttempts ∧ x.payoutPaymentHash = b.payoutPaymentHash)

/-- The stored row of a bond that a pass has fetched has what is said of it, or its payout is
over. -/
def Bond.Outstanding (b : Bond) (K : Bond → Prop) (s : State) : Prop :=
  b.id < s.nextId ∧ ∀ x ∈ s.bonds, x.id = b.id →
    x.state.endsPayout = true ∨ x.state = .pendingPayout ∧ K x

def Op.spares (whole : Bool) (id : Uuid) (op : Op) : Prop :=
  op.givesUp id = false ∧ (whole = true → op.touches id = false)

section

variable {b : Bond} {s : State} {whole : Bool}

theorem bondUpdate_ends {req : Request} {Γ : Set Fact} (hn : u.need req Γ)
    (hsel : u.selects s x = true) (h : x.state.endsPayout = true) :
    (u.set s x).state.endsPayout = true := by
  have hg := bondUpdate_guard hsel
  have hnot {st : BondState} (hst : x.state = st) (hends : st.endsPayout = false) : False := by
    rw [hst,hends] at h
    cases h
  cases u with
  | update read row =>
    obtain ⟨t,rfl⟩ := hn.2.2.1
    rfl
  | lockTaker id order t => exact (hnot (by simpa using (Bool.and_eq_true_iff.mp hg).1) rfl).elim
  | lockMaker id t => exact (hnot (beq_iff_eq.mp hg) rfl).elim
  | slash id reason t share trade => exact (hnot (beq_iff_eq.mp hg) rfl).elim
  | resurrect id invoice => exact (hnot (beq_iff_eq.mp hg) rfl).elim
  | markFailed id => exact (hnot (beq_iff_eq.mp hg) rfl).elim
  | forfeit id t => rfl
  | finalizeNodeOnly id => rfl
  | slashAfterSuccess id => rfl
  | _ => exact h

theorem bondUpdate_known {req : Request} {Γ : Set Fact} (hn : u.need req Γ)
    (hsel : u.selects s x = true) (hu : Op.spares whole x.id (.bond (.run u)))
    (hst : x.state = .pendingPayout) (h : b.PassKnows whole x) :
    (u.set s x).state.endsPayout = true ∨
      (u.set s x).state = .pendingPayout ∧ b.PassKnows whole (u.set s x) := by
  have hg := bondUpdate_guard hsel
  have hid := bondUpdate_id hsel
  have hnot {st : BondState} (h : x.state = st) (hne : st ≠ .pendingPayout) : False :=
    hne (h.symm.trans hst)
  cases u with
  | update read row =>
    obtain ⟨t,rfl⟩ := hn.2.2.1
    exact .inl rfl
  | lockTaker id order t =>
    exact (hnot (by simpa using (Bool.and_eq_true_iff.mp hg).1) (by decide)).elim
  | lockMaker id t => exact (hnot (beq_iff_eq.mp hg) (by decide)).elim
  | slash id reason t share trade => exact (hnot (beq_iff_eq.mp hg) (by decide)).elim
  | updateSlashedShare id => exact (hnot (beq_iff_eq.mp hg) (by decide)).elim
  | resurrect id invoice => exact (hnot (beq_iff_eq.mp hg) (by decide)).elim
  | forfeit id t => exact .inl rfl
  | finalizeNodeOnly id => exact .inl rfl
  | slashAfterSuccess id => exact .inl rfl
  | rearmInvoiceRequest id => exact absurd hid.symm (beq_eq_false_iff_ne.mp hu.1)
  | markFailed id => exact absurd hid.symm (beq_eq_false_iff_ne.mp hu.1)
  | payoutAttempts id n =>
    refine .inr ⟨hst,fun inv hinv => ⟨(h inv hinv).1,fun hwhole => ?_⟩⟩
    exact absurd hid.symm (beq_eq_false_iff_ne.mp (hu.2 hwhole))
  | persistPaymentHash id fee hash =>
    refine .inr ⟨hst,fun inv hinv => ⟨(h inv hinv).1,fun hwhole => ?_⟩⟩
    exact absurd hid.symm (beq_eq_false_iff_ne.mp (hu.2 hwhole))
  | storePayoutInvoice id invoice =>
    -- the pass has fetched no invoice, since there is none yet
    refine .inr ⟨hst,fun inv hinv => ?_⟩
    have hnone := (Bool.and_eq_true_iff.mp hg).2
    rw [(h inv hinv).1] at hnone
    cases hnone
  | requestPayoutInvoice id t => exact .inr ⟨hst,h⟩

theorem RangeClose.keepRow_known (v : RangeClose) (h : b.PassKnows whole x) :
    b.PassKnows whole (v.keepRow x) := by
  unfold RangeClose.keepRow
  dsimp only
  split <;> split <;> exact h

theorem RangeClose.keepRow_of_not_locked (v : RangeClose) (h : x.state ≠ .locked) :
    (v.keepRow x).state = x.state := by
  rw [v.keepRow_state]
  simp [h]

theorem Bond.Outstanding.bondStmt {req : Request} {Γ : Set Fact} {K : Bond → Prop}
    (hc : Consistent s) (hn : st.need req Γ) (hΓ : ∀ f ∈ Γ, f.Lasts s)
    (hrun : ∀ u x, st = .run u → u.selects s x = true → x.id = b.id → x.state = .pendingPayout →
      K x → (u.set s x).state.endsPayout = true ∨
        (u.set s x).state = .pendingPayout ∧ K (u.set s x))
    (hclose : ∀ v x, K x → K (RangeClose.keepRow v x)) (h : b.Outstanding K s) :
    b.Outstanding K (st.exec s).1 := by
  refine ⟨lt_of_lt_of_le h.1 (bondStmt_nextId s st),fun x hx hid => ?_⟩
  rw [bondStmt_bonds] at hx
  rcases List.mem_append.mp hx with hx | hx
  · obtain ⟨q,hq,rfl⟩ := List.mem_map.mp hx
    have hqid := (rewrite_becomes hc hn hΓ hq).1.id.symm.trans hid
    have hrow := h.2 q hq hqid
    cases st with
    | run u =>
      simp only [BondStmt.rewrite]
      split
      next hsel =>
        rcases hrow with hends | ⟨hst,hk⟩
        · exact .inl (bondUpdate_ends hn hsel hends)
        · exact hrun u q rfl hsel hqid hst hk
      · exact hrow
    | closeRange v =>
      simp only [BondStmt.rewrite]
      split
      · rcases hrow with hends | ⟨hst,hk⟩
        · left
          rwa [v.keepRow_of_not_locked]
          rintro hlocked
          simp [hlocked,BondState.endsPayout] at hends
        · exact .inr ⟨by rwa [v.keepRow_of_not_locked (by simp [hst])],hclose v q hk⟩
      · exact hrow
    | _ => exact hrow
  · exact absurd ((inserted_spec hn hx).1.symm.trans hid) (Nat.ne_of_gt h.1)

theorem Bond.Outstanding.of_effect {l : Label} {s' : State} {K : Bond → Prop}
    (hk : Knowing l op ls s) (he : Effect l.tid op s s') (h : b.Outstanding K s)
    (hrun : ∀ Γ u x, op = .bond (.run u) → op.need l.req Γ → u.selects s x = true → x.id = b.id →
      x.state = .pendingPayout → K x → (u.set s x).state.endsPayout = true ∨
        (u.set s x).state = .pendingPayout ∧ K (u.set s x))
    (hclose : ∀ v x, K x → K (RangeClose.keepRow v x)) : b.Outstanding K s' := by
  have hsame (hb : s'.bonds = s.bonds) : b.Outstanding K s' :=
    ⟨lt_of_lt_of_le h.1 he.nextId_le,hb ▸ h.2⟩
  rcases he.rows with hrows | ⟨st,rfl,hs'⟩ | ⟨st,rfl,rfl⟩
  · exact hsame hrows.bonds
  · exact hsame (by rw [hs',orderStmt_bonds])
  · obtain ⟨Γ,hn,hΓ⟩ := hk.need
    exact h.bondStmt hk.consistent hn hΓ (fun u x hst => hrun Γ u x (hst ▸ rfl) hn) hclose

theorem Bond.Outstanding.effect {l : Label} {s' : State} (hk : Knowing l op ls s)
    (he : Effect l.tid op s s') (hop : op.spares whole b.id)
    (h : b.Outstanding (b.PassKnows whole) s) : b.Outstanding (b.PassKnows whole) s' := by
  refine h.of_effect hk he (fun Γ u x hu hn hsel hid hpending hknown => ?_) fun v _ =>
    v.keepRow_known
  subst hu
  exact bondUpdate_known hn hsel (hid ▸ hop) hpending hknown

theorem Bond.Outstanding.ended_effect {l : Label} {s' : State} (hk : Knowing l op ls s)
    (he : Effect l.tid op s s') (h : b.Outstanding (fun _ => False) s) :
    b.Outstanding (fun _ => False) s' :=
  h.of_effect hk he (fun _ _ _ _ _ _ _ _ hno => hno.elim) fun _ _ hno => hno

theorem outstanding_of_stored (hc : Consistent s) (hb : b ∈ s.bonds)
    (hst : b.state = .pendingPayout) : b.Outstanding (b.PassKnows whole) s := by
  refine ⟨hc.bondIds_lt b hb,fun x hx hid => ?_⟩
  obtain rfl := hc.bond_unique hx hb hid
  exact .inr ⟨hst,fun _ h => ⟨h,fun _ => ⟨rfl,rfl⟩⟩⟩

theorem Bond.Outstanding.invoice (h : b.Outstanding (b.PassKnows true) s) :
    b.Outstanding (b.PassKnows false) s :=
  ⟨h.1,fun x hx hid => (h.2 x hx hid).imp_right fun hrow =>
    ⟨hrow.1,fun inv hinv => ⟨(hrow.2 inv hinv).1,nofun⟩⟩⟩

end

/-! ### A payout pass -/

def Op.findsFailed (ch : Choice) (s : State) : Op → Bool
  | .lnd (.lookupPaymentStatus h) =>
      ch != .fault && ch != .lost && (s.latestPayment h).any fun p => p.status == .failed
  | _ => false

/-- A payment that the row's counter does not cover was sent, for every row that is paid out with
this hash. -/
def State.sentUncounted (s : State) (h : Hash) : Bool :=
  s.bonds.all fun b => b.state != .pendingPayout || b.payoutPaymentHash != some h ||
    decide (b.payoutAttempts < s.sendsFor b.id h)

/-- A payout pass that finds a failed payment finds one that was not counted yet. -/
abbrev failuresUncounted : Requirement := .check
  (fun l op ch _ s => match op with
    | .lnd (.lookupPaymentStatus h) =>
        !(l.req.paysBonds && op.findsFailed ch s) || s.sentUncounted h
    | _ => true)
  (fun _ _ _ => true)

theorem lookup_failed {ext : Externals} {h : Hash} {s : State}
    (hres : (exec ext tid (.lnd (.lookupPaymentStatus h)) ch s).2 = .ok (some .failed)) :
    Op.findsFailed ch s (.lnd (.lookupPaymentStatus h)) = true := by
  simp only [exec,LndCall.exec] at hres
  cases ch with
  | fault => cases hres
  | lost => cases hres
  | ok =>
    cases hp : s.latestPayment h with
    | none => simp [hp] at hres
    | some p => simpa [hp,Op.findsFailed] using hres
  | pick n =>
    cases hp : s.latestPayment h with
    | none => simp [hp] at hres
    | some p => simpa [hp,Op.findsFailed] using hres

/-- Payments are never taken back, and while a payout pass runs, nobody else replaces the invoices
it works on, or counts for them. -/
structure RetriesKept (l : Label) (s s' : State) : Prop where
  sends : s.sends <:+ s'.sends
  outstanding : l.req.paysBonds = true → ∀ (b : Bond) whole, b.Outstanding (b.PassKnows whole) s →
    b.Outstanding (b.PassKnows whole) s'
  ended : ∀ b : Bond, b.Outstanding (fun _ => False) s → b.Outstanding (fun _ => False) s'

def payoutRetryContract (cfg : Settings) (ext : Externals) : Contract State Label Op where
  Binds _ := True
  Rely := RetriesKept
  Known _ _ _ s := Consistent s ∧ RetriesSent ext s
  Pre l op s := l.req.paysBonds = true → BooksFailures cfg ext op s
  Idle _ _ := True

structure PassCounted (ext : Externals) (bonds : List Bond) (s : State) : Prop where
  ids : (bonds.map (·.id)).Nodup
  outstanding : ∀ b ∈ bonds, b.Outstanding (b.PassKnows true) s
  counted : ∀ b ∈ bonds, b.Counted ext s

structure Working (ext : Externals) (b : Bond) (rest : List Bond) (s : State) : Prop where
  pass : PassCounted ext rest s
  apart : ∀ x ∈ rest, x.id ≠ b.id
  outstanding : b.Outstanding (b.PassKnows false) s
  counted : b.Counted ext s

section

variable {cfg : Settings} {ext : Externals} {l : Label} {b : Bond} {bonds rest : List Bond}
variable {s s' : State} {α : Type}

theorem PassCounted.kept (hl : l.req.paysBonds = true) (hk : RetriesKept l s s')
    (h : PassCounted ext bonds s) : PassCounted ext bonds s' :=
  ⟨h.ids,fun b hb => hk.outstanding hl b true (h.outstanding b hb),
    fun b hb => (h.counted b hb).grows hk.sends⟩

theorem PassCounted.working (h : PassCounted ext (b :: rest) s) : Working ext b rest s where
  pass := ⟨(List.nodup_cons.mp h.ids).2,fun x hx => h.outstanding x (List.mem_cons_of_mem _ hx),
    fun x hx => h.counted x (List.mem_cons_of_mem _ hx)⟩
  apart x hx hid := (List.nodup_cons.mp h.ids).1 (List.mem_map.mpr ⟨x,hx,hid⟩)
  outstanding := (h.outstanding b List.mem_cons_self).invoice
  counted := h.counted b List.mem_cons_self

theorem PassCounted.own (ch : Choice) (hk : Knowing l op ls s)
    (hop : ∀ b ∈ bonds, op.touches b.id = false) (h : PassCounted ext bonds s) :
    PassCounted ext bonds (exec ext l.tid op ch s).1 where
  ids := h.ids
  outstanding b hb := (h.outstanding b hb).effect hk (exec_effect ext l.tid op ch s)
    ⟨Op.givesUp_of_untouched (hop b hb),fun _ => hop b hb⟩
  counted b hb := (h.counted b hb).grows (exec_effect ext l.tid op ch s).logs.sends

theorem Working.kept (hl : l.req.paysBonds = true) (hk : RetriesKept l s s')
    (h : Working ext b rest s) : Working ext b rest s' :=
  ⟨h.pass.kept hl hk,h.apart,hk.outstanding hl b false h.outstanding,h.counted.grows hk.sends⟩

def Op.concerns (b : Bond) (op : Op) : Prop := ∀ id, id ≠ b.id → op.touches id = false

theorem Working.pass_own (ch : Choice) (hk : Knowing l op ls s) (hop : op.concerns b)
    (h : Working ext b rest s) : PassCounted ext rest (exec ext l.tid op ch s).1 :=
  h.pass.own ch hk fun x hx => hop x.id (h.apart x hx)

theorem Working.own (ch : Choice) (hk : Knowing l op ls s) (hop : op.concerns b)
    (hgives : op.givesUp b.id = false) (h : Working ext b rest s) :
    Working ext b rest (exec ext l.tid op ch s).1 where
  pass := h.pass_own ch hk hop
  apart := h.apart
  outstanding := h.outstanding.effect hk (exec_effect ext l.tid op ch s) ⟨hgives,nofun⟩
  counted := h.counted.grows (exec_effect ext l.tid op ch s).logs.sends

abbrev RetrySat (cfg : Settings) (ext : Externals) (l : Label) (p : M α)
    (Q : Except MostroError α → State → Prop) (s : State) : Prop :=
  (daemon cfg ext).Sat (failuresUncounted.given Knowing) (payoutRetryContract cfg ext) l p Q s

theorem working_sat {p : M α} (hl : l.req.paysBonds = true)
    (hp : p.Only fun op => op.booksFailure = false ∧ op.concerns b)
    (hs : Working ext b rest s) :
    RetrySat cfg ext l p (fun _ s => PassCounted ext rest s) s := by
  have hsat : RetrySat cfg ext l p (fun _ s => Working ext b rest s) s :=
    System.Sat.of_only hp hs (fun _ _ h hk => h.kept hl hk) fun _ _ _ hop hs _ =>
      ⟨fun _ => booksFailures_of_not hop.1,
        fun ch hd => hs.own ch hd.2 hop.2 (Op.givesUp_of_not hop.1)⟩
  exact hsat.mono fun _ _ h => h.pass

theorem reads_sat {p : M α} (hl : l.req.paysBonds = true)
    (hp : p.Only fun op => op.booksFailure = false ∧ ∀ id, op.touches id = false)
    (hs : PassCounted ext bonds s) :
    RetrySat cfg ext l p (fun _ s => PassCounted ext bonds s) s :=
  System.Sat.of_only hp hs (fun _ _ h hk => h.kept hl hk) fun _ _ _ hop hs _ =>
    ⟨fun _ => booksFailures_of_not hop.1,fun ch hd => hs.own ch hd.2 fun _ _ => hop.2 _⟩

theorem working_sends (b : Bond) :
    SendsPayout (fun op => op.booksFailure = false ∧ op.concerns b) b.id where
  query _ := ⟨rfl,fun _ _ => rfl⟩
  timestamp := ⟨rfl,fun _ _ => rfl⟩
  finalize := ⟨rfl,fun _ _ => rfl⟩
  request _ := ⟨rfl,fun _ _ => rfl⟩
  asks _ := ⟨rfl,fun _ _ => rfl⟩
  persist _ _ := ⟨rfl,fun _ hid => beq_eq_false_iff_ne.mpr hid.symm⟩
  send _ := ⟨rfl,fun _ _ => rfl⟩
  lookup _ := ⟨rfl,fun _ _ => rfl⟩
  update _ := ⟨rfl,fun _ _ => rfl⟩
  slash := ⟨rfl,fun _ _ => rfl⟩

theorem pass_reads : Reads fun op => op.booksFailure = false ∧ ∀ id, op.touches id = false :=
  ⟨fun _ => ⟨rfl,fun _ => rfl⟩,⟨rfl,fun _ => rfl⟩⟩

structure Failing (ext : Externals) (b : Bond) (rest : List Bond) (s : State) : Prop where
  working : Working ext b rest s
  invoice : b.payoutInvoice ≠ none
  sent : b.Outstanding (fun _ => False) s ∨ b.SentTimes ext (b.payoutAttempts + 1) s

theorem Failing.kept (hl : l.req.paysBonds = true) (hk : RetriesKept l s s')
    (h : Failing ext b rest s) : Failing ext b rest s' :=
  ⟨h.working.kept hl hk,h.invoice,h.sent.imp (hk.ended b) (Bond.SentTimes.grows hk.sends)⟩

theorem Failing.own (ch : Choice) (hk : Knowing l op ls s) (hop : op.concerns b)
    (hgives : op.givesUp b.id = false) (h : Failing ext b rest s) :
    Failing ext b rest (exec ext l.tid op ch s).1 :=
  have he := exec_effect ext l.tid op ch s
  ⟨h.working.own ch hk hop hgives,h.invoice,
    h.sent.imp (Bond.Outstanding.ended_effect hk he) (Bond.SentTimes.grows he.logs.sends)⟩

theorem Failing.stored {n : Int} (h : Failing ext b rest s) (hn : n ≤ b.payoutAttempts + 1)
    (hx : x ∈ s.bonds) (hid : x.id = b.id) (hst : x.state = .pendingPayout) :
    x.payoutInvoice ≠ none ∧ x.SentTimes ext n s := by
  have hpaid : x.state.endsPayout ≠ true := by simp [hst,BondState.endsPayout]
  obtain ⟨inv,hinv⟩ := Option.ne_none_iff_exists'.mp h.invoice
  have hxinv := (((h.working.outstanding.2 x hx hid).resolve_left hpaid).2 inv hinv).1
  have hsent := h.sent.resolve_left fun hended => ((hended.2 x hx hid).resolve_left hpaid).2
  refine ⟨by simp [hxinv],fun inv' d hinv' hd => ?_⟩
  obtain rfl : inv = inv' := Option.some.inj (hxinv.symm.trans hinv')
  rw [hid]
  exact hn.trans (hsent inv d hinv hd)

theorem concerns_of_target (h : ∀ id, op.touches id = (b.id == id)) : op.concerns b :=
  fun id hid => (h id).trans (beq_eq_false_iff_ne.mpr hid.symm)

theorem onSendPaymentFailure_counted (hl : l.req.paysBonds = true) (kind : PaymentFailureKind)
    (hs : Failing ext b rest s) :
    RetrySat cfg ext l (onSendPaymentFailure cfg b kind) (fun _ s => PassCounted ext rest s) s := by
  have hkept : ∀ s s', RetriesKept l s s' → Failing ext b rest s → Failing ext b rest s' :=
    fun _ _ hk h => h.kept hl hk
  refine sat_ask_bind hs hkept fun s₁ ls hs _ => ⟨fun _ x hx hid hst => ?_,fun ch hd => ?_⟩
  · obtain ⟨hinv,hsent⟩ := hs.stored (min_le_left _ _) hx hid hst
    exact ⟨fun hnone => absurd hnone hinv,hsent⟩
  have hs := hs.own ch hd.2 (concerns_of_target fun _ => rfl) rfl
  refine ⟨fun _ _ => ?_,fun _ _ => hs.working.pass⟩
  split
  · exact hs.working.pass
  next hmax =>
    have hmax : maxRetries cfg ≤ b.payoutAttempts + 1 := (not_lt.mp hmax).trans (min_le_left _ _)
    split
    · exact hs.working.pass
    · refine sat_ask_bind hs hkept fun s₂ ls hs _ => ⟨fun _ => trivial,fun ch hd => ?_⟩
      have hs := hs.own ch hd.2 (fun _ _ => rfl) rfl
      refine ⟨fun now _ => ?_,fun _ _ => hs.working.pass⟩
      -- the invoice is given up, so that there must have been a payment for each retry
      have hgives {op : Op} (hpre : ∀ s, Failing ext b rest s → BooksFailures cfg ext op s)
          (hop : op.concerns b) :
          RetrySat cfg ext l ((ask op).bind fun _ => pure ()) (fun _ s => PassCounted ext rest s)
            (exec ext l.tid .timestamp ch s₂).1 := by
        refine sat_ask_bind hs hkept fun s₃ ls hs _ => ⟨fun _ => hpre s₃ hs,fun ch hd => ?_⟩
        have hs := hs.working.pass_own ch hd.2 hop
        exact ⟨fun _ _ => hs,fun _ _ => hs⟩
      split
      · exact hgives (fun s hs x hx hid hst => (hs.stored hmax hx hid hst).2)
          (concerns_of_target fun _ => rfl)
      · exact hgives (fun s hs x hx hid hst => (hs.stored hmax hx hid hst).2)
          (concerns_of_target fun _ => rfl)

theorem slashAfterSuccess_counted (hl : l.req.paysBonds = true) (attempts : Nat)
    (hs : Working ext b rest s) :
    RetrySat cfg ext l (slashAfterSuccess b attempts) (fun _ s => PassCounted ext rest s) s :=
  working_sat hl (slashAfterSuccess_only (working_sends b) attempts) hs

theorem sendToCounterparty_counted (hl : l.req.paysBonds = true) (hinv : b.payoutInvoice = some inv)
    (hd : ext.decodeInvoice inv = some d) (share : Int) (hs : Working ext b rest s) :
    RetrySat cfg ext l (sendToCounterparty cfg ext b d.1 share)
      (fun _ s => PassCounted ext rest s) s := by
  have hkept : ∀ s s', RetriesKept l s s' → Working ext b rest s → Working ext b rest s' :=
    fun _ _ hk h => h.kept hl hk
  refine sat_ask_bind hs hkept fun s₁ ls hs _ => ⟨fun _ => trivial,fun ch hd' => ?_⟩
  have hs := hs.own ch hd'.2 (concerns_of_target fun _ => rfl) rfl
  refine ⟨fun persisted _ => ?_,fun _ _ => hs.pass⟩
  split
  · exact hs.pass
  refine sat_ask_attempt_bind hs hkept fun s₂ ls hs _ => ⟨fun _ => trivial,fun ch hd' => ?_⟩
  have hfail : Failing ext b rest
      (exec ext l.tid (.lnd (.sendPaymentV2 (.bond b.id) d.1 0)) ch s₂).1 :=
    ⟨hs.own ch hd'.2 (fun _ _ => rfl) rfl,by simp [hinv],.inr (hs.counted.sent.send hinv hd)⟩
  split
  · refine sat_ask_bind hfail (fun _ _ hk h => h.kept hl hk) fun s₃ ls hs _ =>
      ⟨fun _ => trivial,fun ch hd' => ?_⟩
    have hs := hs.own ch hd'.2 (fun _ _ => rfl) rfl
    refine ⟨fun outcome _ => ?_,fun _ _ => hs.working.pass⟩
    split
    · exact slashAfterSuccess_counted hl _ hs.working
    · exact onSendPaymentFailure_counted hl _ hs
    · exact onSendPaymentFailure_counted hl _ hs
  · exact onSendPaymentFailure_counted hl _ hfail

theorem failing_of_lookup (hl : l.req.paysBonds = true) (hinv : b.payoutInvoice = some inv)
    (hd : ext.decodeInvoice inv = some d) (hhash : b.payoutPaymentHash = some d.1)
    (hs : PassCounted ext (b :: rest) s)
    (hmeets : (failuresUncounted.given Knowing).onOp l (.lnd (.lookupPaymentStatus d.1)) ch ls s)
    (hfailed : (exec ext l.tid (.lnd (.lookupPaymentStatus d.1)) ch s).2 = .ok (some .failed)) :
    Failing ext b rest (exec ext l.tid (.lnd (.lookupPaymentStatus d.1)) ch s).1 := by
  have huncounted : s.sentUncounted d.1 = true := by
    simpa [System.Demand.check,hl,lookup_failed hfailed] using hmeets.1
  have hout := hs.outstanding b List.mem_cons_self
  have hfail : Failing ext b rest s := by
    refine ⟨hs.working,by simp [hinv],?_⟩
    by_cases hpaid : ∃ x ∈ s.bonds, x.id = b.id ∧ x.state = .pendingPayout
    · obtain ⟨x,hx,hid,hst⟩ := hpaid
      have hknown := ((hout.2 x hx hid).resolve_left (by simp [hst,BondState.endsPayout])).2
        inv hinv
      obtain ⟨hattempts,hsame⟩ := hknown.2 rfl
      have hrow := List.all_eq_true.mp huncounted x hx
      simp only [hst,hsame,hhash,hattempts,hid,bne_self_eq_false,Bool.false_or,
        decide_eq_true_eq] at hrow
      refine .inr fun inv' d' hinv' hd' => ?_
      obtain rfl : inv = inv' := Option.some.inj (hinv.symm.trans hinv')
      obtain rfl : d = d' := Option.some.inj (hd.symm.trans hd')
      exact hrow
    · exact .inl ⟨hout.1,fun x hx hid => .inl ((hout.2 x hx hid).resolve_right fun hrow =>
        hpaid ⟨x,hx,hid,hrow.1⟩)⟩
  exact hfail.own ch hmeets.2 (fun _ _ => rfl) rfl

theorem payCounterparty_counted (hl : l.req.paysBonds = true) (hinv : b.payoutInvoice = some inv)
    (share : Int) (hs : PassCounted ext (b :: rest) s) :
    RetrySat cfg ext l (payCounterparty cfg ext b inv share)
    (fun _ s => PassCounted ext rest s) s := by
  unfold payCounterparty
  split
  next hnone =>
    -- an invoice that cannot be decoded is counted without a payment
    refine onSendPaymentFailure_counted hl _
      ⟨hs.working,by simp [hinv],.inr fun inv' d hinv' hd => ?_⟩
    obtain rfl : inv = inv' := Option.some.inj (hinv.symm.trans hinv')
    cases hnone.symm.trans hd
  next hash amount hd =>
    split
    next hhash =>
      refine sat_ask_attempt_bind hs (fun _ _ hk h => h.kept hl hk) fun s₁ ls hs _ =>
        ⟨fun _ => trivial,fun ch hmeets => ?_⟩
      have hafter := hs.own ch hmeets.2 fun _ _ => rfl
      split
      · exact slashAfterSuccess_counted hl _ hafter.working
      next hfailed =>
        exact onSendPaymentFailure_counted hl _
          (failing_of_lookup hl hinv hd hhash hs hmeets hfailed)
      · exact hafter.working.pass
      · exact sendToCounterparty_counted hl hinv hd share hafter.working
    · exact sendToCounterparty_counted hl hinv hd share hs.working

theorem processOneBond_counted (hl : l.req.paysBonds = true) (hs : PassCounted ext (b :: rest) s) :
    RetrySat cfg ext l (processOneBond cfg ext b) (fun _ s => PassCounted ext rest s) s := by
  refine System.Sat.bind ((reads_sat hl (childPayoutBlockedByLockedParent_only
    pass_reads b) hs).mono fun r s hs => ?_)
  rcases r with e | blocked
  · exact hs.working.pass
  cases blocked with
  | true => exact hs.working.pass
  | false =>
    refine sat_ask_bind hs (fun _ _ hk h => h.kept hl hk) fun s₁ ls hs _ =>
      ⟨fun _ => trivial,fun ch hd => ?_⟩
    have hs := hs.own ch hd.2 fun _ _ => rfl
    refine ⟨fun now _ => sat_require_bind (fun t _ => ?_) fun _ => hs.working.pass,
      fun _ _ => hs.working.pass⟩
    split
    · refine working_sat hl ((ask_only ?_).bind fun _ => ?_) hs.working
      · exact ⟨rfl,fun _ _ => rfl⟩
      · trivial
    refine sat_require_bind (fun share _ => ?_) fun _ => hs.working.pass
    split
    · refine working_sat hl ?_ hs.working
      exact (ask_only (working_sends b).finalize).bind fun _ => trivial
    split
    · exact working_sat hl (requestPayoutInvoice_only (working_sends b) cfg) hs.working
    next inv hinv => exact payCounterparty_counted hl hinv share hs

theorem runBondPayoutCycle_counted (hl : l.req.paysBonds = true) :
    RetrySat cfg ext l (runBondPayoutCycle cfg ext) (fun _ _ => True) s := by
  refine sat_ask_bind (T := fun _ => True) trivial (fun _ _ _ _ => trivial) fun s ls _ hk =>
    ⟨fun _ => trivial,fun ch hd => ⟨fun bonds hres => ?_,fun _ _ => trivial⟩⟩
  have hrun := (exec_query_ok hres).2
  have hmem : ∀ b ∈ bonds, b ∈ s.bonds ∧ b.state = .pendingPayout := by
    intro b hb
    rw [← hrun] at hb
    simpa only [Query.run,mem_byCreatedAt,List.mem_filter,beq_iff_eq] using hb
  have hs : PassCounted ext bonds s := by
    refine ⟨?_,fun b hb => ?_,fun b hb => ?_⟩
    · rw [← hrun]
      have hperm := (List.perm_insertionSort (fun a b : Bond => a.createdAt ≤ b.createdAt)
        (s.bonds.filter fun b => b.state == .pendingPayout)).map (·.id)
      exact hperm.nodup_iff.mpr (hk.1.bondIds.sublist (List.filter_sublist.map _))
    · exact outstanding_of_stored hk.1 (hmem b hb).1 (hmem b hb).2
    · exact hk.2 b (hmem b hb).1 (by rw [(hmem b hb).2]; decide)
  have hs := hs.own ch hd.2 fun _ _ => rfl
  refine System.Sat.mono (System.Sat.forEach_rest (I := PassCounted ext) hs fun b rest s hs => ?_)
    fun _ _ _ => trivial
  exact System.Sat.ignore ((processOneBond_counted hl hs).mono fun _ _ h => ⟨rfl,h⟩)

end

/-! ### In every run -/

section

variable {cfg : Settings} {ext : Externals}

theorem coexist_paysBonds {l l' : Label} (h : l.coexist l' = true)
    (hl' : l'.req.paysBonds = true) : l.req.paysBonds = false := by
  by_contra hl
  have hl := Request.eq_of_paysBonds (by simpa using hl)
  simp [Label.coexist,hl,Request.eq_of_paysBonds hl',Request.exclusive] at h

theorem payoutRetryContract_keeps :
    System.Keeps (daemon cfg ext) (failuresUncounted.given Knowing) (payoutRetryContract cfg ext)
      State.Initial where
  rely_refl _ _ := ⟨List.suffix_rfl,fun _ _ _ h => h,fun _ h => h⟩
  rely_trans _ _ _ _ h h' :=
    ⟨h.sends.trans h'.sends,fun hl b w hb => h'.outstanding hl b w (h.outstanding hl b w hb),
      fun b hb => h'.ended b (h.ended b hb)⟩
  distinct l := by simp [daemon,Label.coexist]
  init _ _ _ _ := trivial
  start l s s' hl l' _ _ := by
    obtain ⟨_,rfl⟩ := launch_eq hl
    exact ⟨⟨List.suffix_rfl,fun _ b _ hb => ⟨Nat.lt_succ_of_lt hb.1,hb.2⟩,
      fun b hb => ⟨Nat.lt_succ_of_lt hb.1,hb.2⟩⟩,fun _ => trivial⟩
  code l s s' _ _ _ := by
    show RetrySat cfg ext l (l.req.code cfg ext) (fun _ _ => True) s'
    by_cases hl : l.req.paysBonds = true
    · rw [Request.eq_of_paysBonds hl]
      exact runBondPayoutCycle_counted hl
    · exact System.Sat.of_only (T := fun _ => True) (Prog.only_true _) trivial
        (fun _ _ _ _ => trivial)
        fun _ _ _ _ _ _ => ⟨fun hpays => absurd hpays hl,fun _ _ => trivial⟩
  other l l' op ch ls s hco _ _ _ _ _ hd := by
    have he := exec_effect ext l.tid op ch s
    refine ⟨he.logs.sends,fun hl' b _ hb => hb.effect hd.2 he ?_,fun _ => .ended_effect hd.2 he⟩
    have huntouched : op.touches b.id = false := by
      obtain ⟨Γ,hn,_⟩ := hd.2.need
      by_contra htouches
      have hpays := touches_need hn (by simpa using htouches)
      rw [coexist_paysBonds hco hl'] at hpays
      cases hpays
    exact ⟨Op.givesUp_of_untouched huntouched,fun _ => huntouched⟩
  idle _ _ _ _ _ _ _ _ _ _ _ := trivial
  env e ls s s' _ he := by
    have hm := env_moves he
    have hrows := hm.rowsKept
    have hkept {b : Bond} {K : Bond → Prop} (hb : b.Outstanding K s) : b.Outstanding K s' :=
      ⟨lt_of_lt_of_le hb.1 hrows.nextId,hrows.bonds ▸ hb.2⟩
    exact ⟨fun _ l _ => ⟨fun _ => ⟨hm.logs.sends,fun _ _ _ => hkept,fun _ => hkept⟩,
      fun _ => trivial⟩,fun _ _ _ => trivial⟩

theorem launch_sends {l : Label} {s s' : State} (h : l.launch cfg s = some s') :
    s.sends <:+ s'.sends := by
  obtain ⟨_,rfl⟩ := launch_eq h
  exact List.suffix_rfl

theorem retries_reach (hext : ext.Documented) {c : DaemonState}
    (hc : (daemon cfg ext).Reach failuresUncounted State.Initial c) :
    RetriesSent ext c.shared ∧ ∀ l op, c.AboutTo l op →
      l.req.paysBonds = true → BooksFailures cfg ext op c.shared := by
  have hkeeps : System.Keeps (daemon cfg ext) (failuresUncounted.given Knowing)
    (payoutRetryContract cfg ext) State.Initial := payoutRetryContract_keeps
  have hinv (c : DaemonState)
      (hc : (daemon cfg ext).Reach (failuresUncounted.given Knowing) State.Initial c) :
      Consistent c.shared ∧ RetriesSent ext c.shared := by
    refine (hkeeps.invariant (I := fun s => Consistent s ∧ RetriesSent ext s) (fun _ => trivial)
      (fun _ _ _ _ h => h) (fun s hs => ?_) (fun l s s' hl h => ?_)
      (fun l op ch ls s hpre hd h => ?_)
      (fun e ls s s' _ he h => ?_) hc).1
    · refine ⟨initial_consistent hs,?_⟩
      obtain ⟨now,height,rfl⟩ := hs
      exact fun b hb => nomatch hb
    · have hk := launch_rowsKept hl
      refine ⟨hk.consistent h.1,fun b hb hst => ?_⟩
      exact (h.2 b (hk.bonds ▸ hb) hst).grows (launch_sends hl)
    · obtain ⟨Γ,hn,hΓ⟩ := hd.2.need
      have he := exec_effect ext l.tid op ch s
      exact ⟨consistent_effect h.1 hn hΓ he,h.2.effect hd.2 hpre he⟩
    · have hm := env_moves he
      refine ⟨hm.rowsKept.consistent h.1,fun b hb hst => ?_⟩
      exact (h.2 b (hm.rowsKept.bonds ▸ hb) hst).grows hm.logs.sends
  have hgiven := System.Reach.given (fun c hc l op hnext => reach_knowing hext hc hnext) hc
  exact ⟨(hinv c hgiven).2,fun l op hnext =>
    hkeeps.pre (fun c hc _ _ _ => hinv c hc) hgiven hnext trivial⟩

def ReadCounted (ext : Externals) (f : Fact) (s : State) : Prop :=
  ∀ b, f = .bond b → b.Counted ext s

theorem ReadCounted.grows {f : Fact} {s s' : State} (hs : s.sends <:+ s'.sends)
    (h : ReadCounted ext f s) : ReadCounted ext f s' := fun b hf => (h b hf).grows hs

theorem counted_invariant (cfg : Settings) (ext : Externals) :
    StepInvariant ext (failuresUncounted.given fun l op _ s => RetriesSent ext s ∧
      (l.req.paysBonds = true → BooksFailures cfg ext op s))
      (fun s => ∀ b ∈ s.bonds, b.Counted ext s) (fun _ f s => ReadCounted ext f s) where
  init s hs := by
    obtain ⟨now,height,rfl⟩ := hs
    exact fun b hb => nomatch hb
  launch cfg l s s' hc hi hl := by
    have hbonds := (launch_rowsKept hl).bonds
    exact ⟨fun b hb => (hi b (hbonds ▸ hb)).grows (launch_sends hl),
      fun _ _ _ h => h.grows (launch_sends hl)⟩
  op l Γ op ch ls s hn hΓ hc hi hd he := by
    refine ⟨fun b hb => ?_,fun _ _ _ _ h => h.grows he.logs.sends⟩
    refine Bond.Counted.grows he.logs.sends ?_
    rcases he.rows with hrows | ⟨st,_,hs'⟩ | ⟨st,rfl,hs'⟩
    · exact hi b (hrows.bonds ▸ hb)
    · exact hi b (by rwa [hs',orderStmt_bonds] at hb)
    · rw [hs'] at hb
      rcases hd.2.1.bondStmt hn (books_of_need hn hd.2.2) hb with h | ⟨_,h | ⟨q,_,read,row,rfl,rfl⟩⟩
      · exact h
      · exact hi b h
      · obtain ⟨t,rfl⟩ := hn.2.2.1
        obtain ⟨hunused,hsent⟩ := (hΓ _ hn.1).2 read rfl
        exact ⟨hunused,hsent⟩
  learn l Γ op ch ls s f hn hΓ hc hi hd hc' hi' hf hseen := by
    rintro b rfl
    exact hi' b hseen
  env e ls s s' hc hi hd he := by
    refine ⟨fun b hb => ?_,fun _ _ _ _ h => h.grows he.logs.sends⟩
    exact (hi b (he.rowsKept.bonds ▸ hb)).grows he.logs.sends

def Bond.drops (inv : PaymentRequest) (b : Bond) : Bool :=
  b.state == .failed || b.state == .pendingPayout && b.payoutInvoice != some inv

theorem dropped_by {req : Request} {Γ : Set Fact} {s : State} {b b' : Bond} (hc : Consistent s)
    (hn : st.need req Γ) (hΓ : ∀ f ∈ Γ, f.Lasts s) (hb : b ∈ s.bonds)
    (hb' : b' ∈ (st.exec s).1.bonds) (hid : b'.id = b.id) (hst : b.state = .pendingPayout)
    (hinv : b.payoutInvoice = some inv) (hdrop : b'.drops inv = true) :
    Op.givesUp b.id (.bond st) = true := by
  by_contra hgives
  have hstored : b.Outstanding (b.PassKnows false) s := outstanding_of_stored hc hb hst
  have hout := hstored.bondStmt hc hn hΓ (fun u x heq hsel hxid hpending hknown => by
    subst heq
    exact bondUpdate_known hn hsel ⟨by simpa [hxid] using hgives,nofun⟩ hpending hknown)
    fun v _ => v.keepRow_known
  rcases hout.2 b' hb' hid with hends | ⟨hpending,hsame⟩
  · cases hst' : b'.state <;> simp [hst',BondState.endsPayout,Bond.drops] at hends hdrop
  · simp [Bond.drops,hpending,(hsame inv hinv).1] at hdrop

theorem booksFailures_gives {s : State} (h : op.givesUp id = true)
    (hpre : BooksFailures cfg ext op s) {b : Bond} (hb : b ∈ s.bonds) (hid : b.id = id)
    (hst : b.state = .pendingPayout) : b.SentTimes ext (maxRetries cfg) s := by
  unfold Op.givesUp at h
  split at h
  · exact hpre b hb (hid.trans (beq_iff_eq.mp h).symm) hst
  · exact hpre b hb (hid.trans (beq_iff_eq.mp h).symm) hst
  · cases h

/-- Where a payout pass that finds a failed payment finds one that was not counted yet, the retries
counted for a decodable invoice are at most the payments sent for it, and the invoice is given up
only after as many payments as there are retries. -/
theorem retries_are_payments (hext : ext.Documented) {c : DaemonState}
    (hc : (daemon cfg ext).Reach failuresUncounted State.Initial c) {b : Bond}
    (hb : b ∈ c.shared.bonds) {inv : PaymentRequest} {d : Hash × Option Int}
    (hinv : b.payoutInvoice = some inv) (hd : ext.decodeInvoice inv = some d) :
    b.payoutAttempts ≤ c.shared.sendsFor b.id d.1 ∧
      ∀ c' e, System.Meets failuresUncounted c e → (daemon cfg ext).step c e = some c' →
        ∀ b' ∈ c'.shared.bonds, b'.id = b.id → b.state = .pendingPayout → b'.drops inv = true →
          maxRetries cfg ≤ c.shared.sendsFor b.id d.1 := by
  have hcons := reach_consistent hext hc
  constructor
  · have hgiven := System.Reach.given (J := fun l op _ s => RetriesSent ext s ∧
      (l.req.paysBonds = true → BooksFailures cfg ext op s)) (fun c hc l op hnext =>
        ⟨(retries_reach hext hc).1,(retries_reach hext hc).2 l op hnext⟩) hc
    exact (((counted_invariant cfg ext).reach hext hgiven).2 b hb).sent inv d hinv hd
  intro c' e hm hs b' hb' hid hst hdrop
  have hsame : c'.shared.bonds = c.shared.bonds → False := by
    intro hbonds
    obtain rfl := hcons.bond_unique (hbonds ▸ hb') hb hid
    simp [Bond.drops,hst,hinv] at hdrop
  rcases System.step_shared hm hs with ⟨l,hl⟩ | ⟨l,op,ch,hnext,_,hexec⟩ | ⟨e,_,he⟩
  · exact (hsame (launch_rowsKept hl).bonds).elim
  · have hk := reach_knowing hext hc hnext
    have he := exec_effect ext l.tid op ch c.shared
    have hexec : c'.shared = (exec ext l.tid op ch c.shared).1 := hexec
    rw [← hexec] at he
    rcases he.rows with hrows | ⟨st,_,hst'⟩ | ⟨st,rfl,hst'⟩
    · exact (hsame hrows.bonds).elim
    · exact (hsame (by rw [hst',orderStmt_bonds])).elim
    · obtain ⟨Γ,hn,hΓ⟩ := hk.need
      rw [hst'] at hb'
      have hgives := dropped_by hcons hn hΓ hb hb' hid hst hinv hdrop
      have hpre := (retries_reach hext hc).2 l _ hnext (givesUp_need hn hgives)
      exact booksFailures_gives hgives hpre hb rfl hst inv d hinv hd
  · exact (hsame (env_moves he).rowsKept.bonds).elim

end

def invoicedSlice : Schedule :=
  resolvedRange ++ alone 13 (.message (.addBondInvoice 1 8 (some 60))) 5

/-- The row 11 loses its invoice 60 in this step, when `n` payments were sent for it. -/
def givesUpSlice (n : Nat) (s s' : State) : Bool :=
  (s.bonds.any fun b => b.id == 11 && b.state == .pendingPayout && b.payoutInvoice == some 60)
    && s.sendsFor 11 60 == n && s'.bonds.any fun b => b.id == 11 && b.drops 60

theorem givesUpSlice_spec {n : Nat} {s s' : State} (h : givesUpSlice n s s' = true) :
    (∃ b ∈ s.bonds, b.id = 11 ∧ b.state = .pendingPayout ∧ b.payoutInvoice = some 60) ∧
      s.sendsFor 11 60 = n ∧ ∃ b' ∈ s'.bonds, b'.id = 11 ∧ b'.drops 60 = true := by
  simpa [givesUpSlice,and_assoc] using h

def fivePayments : Schedule :=
  let refused (tid : Nat) := alone tid (.job .processBondPayouts) 4 ++ .step 0 .fault :: steps 0 1
  let again (tid : Nat) := alone tid (.job .processBondPayouts) 5 ++ .step 0 .fault :: steps 0 1
  invoicedSlice ++ refused 14 ++ again 15 ++ again 16 ++ again 17
    ++ alone 18 (.job .processBondPayouts) 6 ++ .env (.failPayment 19) :: steps 0 3

theorem invoice_given_up_after_five :
    ∃ c, (daemon (bondSettings .make 1000) plainExternals).Reach failuresUncounted State.Initial c ∧
      c.shared.sendsFor 11 60 = 5 ∧
      maxRetries (bondSettings .make 1000) ≤ c.shared.sendsFor 11 60 := by
  obtain ⟨c,c',hc,hm,hs,h⟩ := step_of_schedule (bondSettings .make 1000) plainExternals
    failuresUncounted fivePayments (.step 0 .ok) (givesUpSlice 5) (by decide +kernel)
  obtain ⟨⟨b,hb,hid,hst,hinv⟩,hn,b',hb',hid',hdrop⟩ := givesUpSlice_spec h
  have hmax := (retries_are_payments plainExternals_documented hc hb hinv rfl).2 c' _ hm hs b' hb'
    (hid'.trans hid.symm) hst hdrop
  exact ⟨c,hc,hn,hid ▸ hmax⟩

/-- One payment is sent and fails.  Each of the next four passes looks it up, finds it failed and
counts it again without sending anything, and the last one gives up the invoice. -/
def onePayment : Schedule :=
  invoicedSlice ++ alone 14 (.job .processBondPayouts) 5 ++ .env (.failPayment 15) :: steps 0 2
    ++ alone 16 (.job .processBondPayouts) 5 ++ alone 17 (.job .processBondPayouts) 5
    ++ alone 18 (.job .processBondPayouts) 5 ++ alone 19 (.job .processBondPayouts) 6

theorem invoice_given_up_after_one :
    ∃ c c' e, (daemon (bondSettings .make 1000) plainExternals).Reach System.Demand.none
      State.Initial c ∧
      (daemon (bondSettings .make 1000) plainExternals).step c e = some c' ∧
      (∃ b ∈ c.shared.bonds, b.id = 11 ∧ b.state = .pendingPayout ∧ b.payoutInvoice = some 60 ∧
        plainExternals.decodeInvoice 60 = some (60,none) ∧ b.payoutAttempts = 5) ∧
      c.shared.sendsFor 11 60 = 1 ∧ maxRetries (bondSettings .make 1000) = 5 ∧
      ∃ b' ∈ c'.shared.bonds, b'.id = 11 ∧ b'.drops 60 = true := by
  obtain ⟨c,c',hc,_,hs,h⟩ := step_of_schedule (bondSettings .make 1000) plainExternals
    System.Demand.none onePayment (.step 0 .ok) (fun s s' => givesUpSlice 1 s s' &&
      s.bonds.all fun b => b.id != 11 || b.payoutAttempts == 5) (by decide +kernel)
  obtain ⟨hslice,hfive⟩ := Bool.and_eq_true_iff.mp h
  obtain ⟨⟨b,hb,hid,hst,hinv⟩,hn,hdrop⟩ := givesUpSlice_spec hslice
  have hcount : b.payoutAttempts = 5 := by
    simpa [hid] using List.all_eq_true.mp hfive b hb
  exact ⟨c,c',_,hc,hs,⟨b,hb,hid,hst,hinv,by decide,hcount⟩,hn,by decide,hdrop⟩

end Mostro
