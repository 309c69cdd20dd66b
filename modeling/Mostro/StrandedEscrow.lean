import Mostro.EscrowTerms

set_option autoImplicit false

/-!
Settled escrows that are not recorded.  When Release or AdminSettle stops between the settlement of
the hold invoice and the move of the order to `settled-hold-invoice`, no later command makes that
move: it is made only by a handler whose own settle succeeded, and the node settles an invoice once.
-/

namespace Mostro

open Interleaving SqlTable

/-- The order stands where it may be released, with a hold invoice that is settled. -/
structure Stranded (id : Uuid) (h : Hash) (s : State) : Prop where
  row : ∃ r ∈ s.orders, r.order.id = id ∧ r.order.hash = some h ∧
    (r.order.status = .fiatSent ∨ r.order.status = .dispute)
  settled : s.holdState h = some .settled

def ReadStranded (id : Uuid) (h : Hash) : Fact → Prop
  | .order x => x.id = id → x.hash = some h ∧ (x.status = .fiatSent ∨ x.status = .dispute)
  | .captured p => p ≠ h
  | _ => True

section

variable {req : Request} {Γ : Set Fact} {s : State} {id : Uuid} {h : Hash}

theorem KnowsRead.stranded {read : Order} (hk : KnowsRead Γ read) (hid : read.id = id)
    (hΓ : ∀ f ∈ Γ, ReadStranded id h f) :
    read.hash = some h ∧ (read.status = .fiatSent ∨ read.status = .dispute) := by
  obtain ⟨x,hx,hxid,hsame⟩ := hk
  obtain ⟨hh,hst⟩ := hΓ _ hx (hxid.trans hid)
  rcases hsame with ⟨hs,hhash⟩ | hs | hs
  · exact ⟨hhash ▸ hh,hs ▸ hst⟩
  all_goals rcases hst with hst | hst <;> rw [hst] at hs <;> cases hs

theorem isEscrowed_of_settling {st : Status} (h : st = .fiatSent ∨ st = .dispute) :
    st.isEscrowed = true := by
  rcases h with rfl | rfl <;> rfl

theorem RowWrite.stranded {read row : Order} (hn : RowWrite req Γ read row)
    (hcashu : req.locksCashu = false) (hid : row.id = id) (hset : s.holdState h = some .settled)
    (hΓ : ∀ f ∈ Γ, f.Lasts s ∧ ReadStranded id h f) :
    row.hash = some h ∧ (row.status = .fiatSent ∨ row.status = .dispute) := by
  have hknown := hn.known.resolve_right fun hl => by cases hcashu.symm.trans hl
  obtain ⟨hh,hst⟩ := hknown.stranded (hn.id.symm.trans hid) fun f hf => (hΓ f hf).2
  rcases hn.escrowed (isEscrowed_of_settling hst) with ⟨hrow,hsame⟩ | hcan
  · refine ⟨hsame.trans hh,?_⟩
    have h1 := hn.notSettled
    have h2 := hn.notSuccess
    cases hs : row.status <;> simp_all [Status.isEscrowed]
  · have hcan : s.holdState h = some .canceled := (hΓ _ (hcan h hh)).1
    cases hset.symm.trans hcan

theorem orderUpdate_stranded {u : OrderUpdate} {r : OrderRow} (hn : u.need req Γ)
    (hcashu : req.locksCashu = false) (hset : s.holdState h = some .settled)
    (hΓ : ∀ f ∈ Γ, f.Lasts s ∧ ReadStranded id h f) (hid : r.order.id = id)
    (hh : r.order.hash = some h) (hst : r.order.status = .fiatSent ∨ r.order.status = .dispute)
    (hsel : u.selects s r = true) :
    (u.set r).order.hash = some h ∧
      ((u.set r).order.status = .fiatSent ∨ (u.set r).order.status = .dispute) := by
  have htarget := orderUpdate_id hsel
  rcases orderUpdate_cases hn hsel with ⟨read,hu⟩ | ⟨hearly,_⟩ | ⟨hs,hhash⟩ | ⟨hu,_⟩ | ⟨_,hs,_⟩
  · cases u with
    | update read row => exact RowWrite.stranded hn hcashu (htarget.symm.trans hid) hset hΓ
    | updateOrderToInitialState read a f d =>
      have hread := hn.2.2.2.1.stranded (htarget.symm.trans hid) fun f hf => (hΓ f hf).2
      have hbefore := isBeforePayment_not_escrowed hn.1
      exact nomatch hbefore.symm.trans (isEscrowed_of_settling hread.2)
    | _ => cases hu
  · exact nomatch (isEarly_not_escrowed hearly).symm.trans (isEscrowed_of_settling hst)
  · exact ⟨hhash.trans hh,hs ▸ hst⟩
  · -- the move to `settled-hold-invoice` needs a settle of the handler's own
    obtain ⟨o,p,⟨ho,hp,_⟩,hoid,_,hcap⟩ : ∃ o p, Settleable Γ o p ∧ o.id = r.order.id ∧
        .settled p ∈ Γ ∧ .captured p ∈ Γ := by
      rcases hu with rfl | rfl <;> exact hn.2
    have hhash := ((hΓ _ ho).2 (hoid.trans hid)).1
    have hpre : o.preimage = o.hash := (hΓ _ ho).1.2.1
    have hph : p = h := Option.some.inj (hp.symm.trans (hpre.trans hhash))
    exact absurd hph (hΓ _ hcap).2
  · rcases hst with hst | hst <;> exact nomatch hs.symm.trans hst

theorem stranded_effect {l : Label} {op : Op} {s' : State} (hn : op.need l.req Γ)
    (hcashu : l.req.locksCashu = false) (hΓ : ∀ f ∈ Γ, f.Lasts s ∧ ReadStranded id h f)
    (hs : Stranded id h s) (he : Effect l.tid op s s') : Stranded id h s' := by
  refine ⟨?_,he.holdsProgress.holdState (.inl rfl) hs.settled⟩
  obtain ⟨r,hr,hid,hh,hst⟩ := hs.row
  rcases he.rows with hk | ⟨st,rfl,rfl⟩ | ⟨st,_,rfl⟩
  · exact ⟨r,hk.orders ▸ hr,hid,hh,hst⟩
  · cases st with
    | create o => exact ⟨r,List.mem_append_left _ hr,hid,hh,hst⟩
    | run u =>
      by_cases hsel : u.selects s r = true
      · exact ⟨u.set r,mem_updateWhere.mpr ⟨r,hr,if_pos hsel⟩,(orderUpdate_set_id hsel).trans hid,
          orderUpdate_stranded hn hcashu hs.settled hΓ hid hh hst hsel⟩
      · exact ⟨r,mem_updateWhere.mpr ⟨r,hr,if_neg hsel⟩,hid,hh,hst⟩
    | deleteStranded x =>
      refine ⟨r,List.mem_filter.mpr ⟨hr,?_⟩,hid,hh,hst⟩
      rcases hst with hst | hst <;> simp [State.deletable,hst]
  · exact ⟨r,(bondStmt_orders st s).symm ▸ hr,hid,hh,hst⟩

end

theorem settle_again_fails {ext : Externals} {tid : Nat} {ch : Choice} {s : State} {h : Hash}
    (hset : s.holdState h = some .settled) :
    (exec ext tid (.lnd (.settleHoldInvoice h)) ch s).2 ≠ .ok () := by
  simp only [exec,LndCall.exec,settleHold,hset]
  split <;> simp

abbrev withoutCashu : Requirement :=
  System.Demand.none.given fun l _ _ _ => l.req.locksCashu = false

theorem query_learn_captured {q : Query} {v : q.Out} {p : Hash} : .captured p ∉ q.learn v := by
  cases q with
  | findBondById id => cases v <;> simp [Query.learn]
  | _ => simp [Query.learn,ordersRead,bondsRead,disputesRead]

theorem captured_unsettled {ext : Externals} {tid : Nat} {op : Op} {ch : Choice} {s : State}
    {p : Hash} (hf : .captured p ∈ op.learn (exec ext tid op ch s).2) :
    s.holdState p ≠ some .settled := by
  cases op with
  | query q =>
    simp only [exec,orFault] at hf
    split at hf
    · exact hf.elim
    · exact absurd hf query_learn_captured
  | order st =>
    rcases learn_order hf with ⟨_,h⟩ | h
    · cases h
    · exact h.elim
  | bond st =>
    simp only [exec,orFault] at hf
    cases st <;> split at hf <;> simp [Op.learn] at hf
  | lnd c =>
    cases c with
    | settleHoldInvoice x =>
      rcases hf with ⟨hf,_⟩ | ⟨hf,hok⟩
      · cases hf
      · cases hf
        exact fun hset => settle_again_fails hset hok
    | cancelHoldInvoice x => cases hf.1
    | createHoldInvoice memo amount =>
      generalize (exec ext tid (.lnd (.createHoldInvoice memo amount)) ch s).2 = answer at hf
      cases answer <;> simp [Op.learn,LndCall.learn] at hf
    | invoiceUpdate x =>
      generalize (exec ext tid (.lnd (.invoiceUpdate x)) ch s).2 = answer at hf
      rcases answer with _ | _ | _ | _ | _ <;> simp [Op.learn,LndCall.learn] at hf
    | _ => exact hf.elim
  | dispute st =>
    obtain ⟨d,hd⟩ := learn_dispute hf
    cases hd
  | _ => exact hf.elim

theorem stranded_keeps (ext : Externals) (id : Uuid) (h : Hash) :
    StepKeeps ext withoutCashu (Stranded id h) (fun _ f _ => ReadStranded id h f) where
  launch cfg l s s' _ hs hl := by
    obtain ⟨_,rfl⟩ := launch_eq hl
    exact ⟨⟨hs.row,hs.settled⟩,fun _ _ _ h => h⟩
  op l Γ op ch ls s hn hΓ _ hs hd he := ⟨stranded_effect hn hd.2 hΓ hs he,fun _ _ _ _ h => h⟩
  learn l Γ op ch ls s f hn hΓ _ hs hd hc' hs' hf hseen := by
    cases f with
    | order x =>
      intro hid
      obtain ⟨q,hq,rfl⟩ := hseen
      obtain ⟨r,hr,hrid,hh,hst⟩ := hs'.row
      obtain rfl := hc'.order_unique hr hq (hrid.trans hid.symm)
      exact ⟨hh,hst⟩
    | captured p =>
      rintro rfl
      exact captured_unsettled hf hs.settled
    | _ => trivial
  env e ls s s' _ hs _ he := by
    have hk := he.rowsKept
    refine ⟨⟨?_,hk.holds.holdState (.inl rfl) hs.settled⟩,fun _ _ _ _ h => h⟩
    obtain ⟨r,hr,h⟩ := hs.row
    exact ⟨r,hk.orders ▸ hr,h⟩

theorem stranded_forever {cfg : Settings} {ext : Externals} (hext : ext.Documented)
    (hcashu : cfg.cashu = false) {c c' : DaemonState} {id : Uuid} {h : Hash}
    (hc : (daemon cfg ext).Reach System.Demand.none State.Initial c) (hidle : c.tasks = [])
    (hs : Stranded id h c.shared) (hr : (daemon cfg ext).Run System.Demand.none c c') :
    Stranded id h c'.shared := by
  have hstart : (daemon cfg ext).Reach System.Demand.none (· = c.shared) c := by
    obtain ⟨s,tasks⟩ := c
    obtain rfl : tasks = [] := hidle
    exact .init rfl
  have hrun : (daemon cfg ext).Reach withoutCashu (· = c.shared) c' := by
    refine System.Reach.given (fun d hd l op hnext => ?_) (hstart.run hr)
    exact not_locksCashu hcashu hd (System.running_of_aboutTo hnext)
  refine (((stranded_keeps ext id h).upholds_from hext cfg ?_).invariant hrun).2
  rintro s rfl
  exact ⟨reach_consistent hext hc,hs⟩

end Mostro
