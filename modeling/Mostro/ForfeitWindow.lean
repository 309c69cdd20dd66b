import Mostro.CapturedFunds
import Mostro.HandlerOperations
import Mostro.TaskContracts

set_option autoImplicit false

/-!
Forfeits.  A payout pass decides on the rows it fetched at its start, while the statement that
forfeits a row looks at the row's state and invoice only.  Where the time of the slash that the pass
knows is the one that is stored, a row is forfeited only once its claim window is over.
-/

namespace Mostro

open Interleaving SqlTable

/-- Where a forfeit finds the row, the time of its slash is the one that the pass has fetched. -/
abbrev forfeitsAsFetched : Requirement := .check
  (fun _ op _ _ s => match op with
    | .bond (.run (.forfeit id t)) => s.bonds.all fun b => b.id != id || b.state != .pendingPayout
        || b.payoutInvoice.isSome || b.slashedAt == some t
    | _ => true)
  (fun _ _ _ => true)

def ForfeitsLate (cfg : Settings) (op : Op) (s : State) : Prop :=
  ∀ id t, op = .bond (.run (.forfeit id t)) → claimWindowSeconds cfg ≤ s.now - t

section

variable {cfg : Settings} {ext : Externals} {l : Label} {b : Bond} {s : State}

abbrev payoutContract (cfg : Settings) : Contract State Label Op :=
  watching (fun l => l.req.paysBonds = true) (fun _ s s' => s.now ≤ s'.now)
    fun _ => ForfeitsLate cfg

def Op.forfeits : Op → Bool
  | .bond (.run (.forfeit _ _)) => true
  | _ => false

theorem forfeitsLate_of_not {op : Op} (h : op.forfeits = false) : ForfeitsLate cfg op s := by
  rintro id t rfl
  cases h

theorem unforfeiting_sat {α : Type} {p : M α} (hp : p.Only fun op => op.forfeits = false) :
    (daemon cfg ext).Sat forfeitsAsFetched (payoutContract cfg) l p (fun _ _ => True) s :=
  System.Sat.of_only hp trivial (fun _ _ _ _ => trivial) fun _ _ _ hop _ _ =>
    ⟨forfeitsLate_of_not hop,fun _ _ => trivial⟩

theorem unforfeiting_pays (bond : Uuid) : PaysBond (fun op => op.forfeits = false) bond where
  query _ := rfl
  timestamp := rfl
  finalize := rfl
  request _ := rfl
  asks _ := rfl
  persist _ _ := rfl
  send _ := rfl
  lookup _ := rfl
  update _ := rfl
  slash := rfl
  attempts _ := rfl
  rearm := rfl
  fails := rfl

theorem processOneBond_late :
    (daemon cfg ext).Sat forfeitsAsFetched (payoutContract cfg) l (processOneBond cfg ext b)
      (fun _ _ => True) s := by
  refine System.Sat.bind ((unforfeiting_sat (childPayoutBlockedByLockedParent_only
    (unforfeiting_pays b.id).toReads b)).mono fun r s _ => ?_)
  rcases r with e | blocked
  · trivial
  cases blocked with
  | true => trivial
  | false =>
    refine sat_ask_bind (T := fun _ => True) trivial (fun _ _ _ h => h) fun s ls _ _ =>
      ⟨forfeitsLate_of_not rfl,fun ch _ => ⟨fun now hnow => ?_,fun e he => nomatch he⟩⟩
    cases hnow
    refine sat_require_bind (fun t ht => ?_) fun _ => trivial
    split
    next hover =>
      -- the clock may have gone on since it was read
      refine sat_ask_bind (T := fun s' => s.now ≤ s'.now) le_rfl (fun _ _ hk h => h.trans hk)
        fun s₁ ls hs _ => ⟨?_,fun _ _ => ⟨fun _ _ => trivial,fun _ _ => trivial⟩⟩
      rintro _ _ ⟨⟩
      have hwindow : claimWindowSeconds cfg ≤ s.now - t := hover.2
      have hnow : s.now ≤ s₁.now := hs
      omega
    · refine unforfeiting_sat (require_only.bind fun share => ?_)
      split
      · exact (ask_only (unforfeiting_pays b.id).finalize).bind fun _ => trivial
      · split
        · exact requestPayoutInvoice_only (unforfeiting_pays b.id).toSendsPayout cfg
        · exact payCounterparty_only (unforfeiting_pays b.id) cfg ext _ _

theorem runBondPayoutCycle_late :
    (daemon cfg ext).Sat forfeitsAsFetched (payoutContract cfg) l (runBondPayoutCycle cfg ext)
      (fun _ _ => True) s := by
  refine sat_ask_bind (T := fun _ => True) trivial (fun _ _ _ h => h) fun s ls _ _ =>
    ⟨forfeitsLate_of_not rfl,fun ch _ => ⟨fun bonds _ => ?_,fun _ _ => trivial⟩⟩
  exact System.Sat.mono (System.Sat.forEach trivial fun b _ s _ =>
    processOneBond_late.ignore) fun _ _ _ => trivial

end

theorem payouts_watched (cfg : Settings) (ext : Externals) :
    Watched cfg ext forfeitsAsFetched (fun l => l.req.paysBonds = true)
      (fun _ s s' => s.now ≤ s'.now) (fun _ => ForfeitsLate cfg) where
  refl _ _ := le_rfl
  trans _ _ _ _ h h' := h.trans h'
  launch l s s' h _ _ := by
    obtain ⟨hs,rfl⟩ := launch_eq h
    exact le_rfl
  other l l' op ch ls s _ _ _ _ _ _ := (exec_now ext l.tid op ch s).ge
  env e ls s s' _ he l _ _ := he.now_le
  code l s hb := by
    rw [Request.eq_of_paysBonds hb]
    exact runBondPayoutCycle_late

theorem forfeited_by {req : Request} {Γ : Set Fact} {s : State} {st : BondStmt} {b b' : Bond}
    (hc : Consistent s) (hn : st.need req Γ) (hΓ : ∀ f ∈ Γ, f.Lasts s) (hb : b ∈ s.bonds)
    (hb' : b' ∈ (st.exec s).1.bonds) (hid : b'.id = b.id) (hbefore : b.state ≠ .forfeited)
    (hafter : b'.state = .forfeited) :
    (∃ t, st = .run (.forfeit b.id t)) ∧ b' = { b with state := .forfeited } ∧
      b.state = .pendingPayout ∧ b.payoutInvoice = none := by
  rw [bondStmt_bonds] at hb'
  rcases List.mem_append.mp hb' with hb' | hb'
  · obtain ⟨q,hq,rfl⟩ := List.mem_map.mp hb'
    obtain rfl := hc.bond_unique hq hb ((rewrite_becomes hc hn hΓ hq).1.id.symm.trans hid)
    cases st with
    | run u =>
      simp only [BondStmt.rewrite] at hafter ⊢
      split at hafter
      next hsel =>
        have hqid := bondUpdate_id hsel
        have hg := bondUpdate_guard hsel
        cases u with
        | forfeit id t =>
          obtain rfl : q.id = id := hqid
          simp only [BondUpdate.guard,Bool.and_eq_true,beq_iff_eq,Option.isNone_iff_eq_none] at hg
          exact ⟨⟨t,rfl⟩,by rw [if_pos hsel]; rfl,hg⟩
        | update read row =>
          obtain ⟨t,rfl⟩ := hn.2.2.1
          cases hafter
        | lockTaker id order t => cases hafter
        | lockMaker id t => cases hafter
        | slash id reason t share trade => cases hafter
        | finalizeNodeOnly id => cases hafter
        | slashAfterSuccess id => cases hafter
        | markFailed id => cases hafter
        | resurrect id invoice => cases hafter
        | _ => exact absurd hafter hbefore
      · exact absurd hafter hbefore
    | closeRange v =>
      simp only [BondStmt.rewrite] at hafter
      split at hafter
      · rw [v.keepRow_state] at hafter
        split at hafter
        · cases hafter
        · exact absurd hafter hbefore
      · exact absurd hafter hbefore
    | _ => exact absurd hafter hbefore
  · exact absurd ((inserted_spec hn hb').1.symm.trans hid) (Nat.ne_of_gt (hc.bondIds_lt b hb))

/-- Where forfeits find the times of slashes that the pass has fetched, a row that becomes forfeited
has no payout invoice, and its slash lies at least the claim window back. -/
theorem forfeited_after_window {cfg : Settings} {ext : Externals} (hext : ext.Documented)
    {c c' : DaemonState} (hc : (daemon cfg ext).Reach forfeitsAsFetched State.Initial c)
    {e : Event Label Choice Env} (hm : System.Meets forfeitsAsFetched c e)
    (hs : (daemon cfg ext).step c e = some c') {b b' : Bond} (hb : b ∈ c.shared.bonds)
    (hb' : b' ∈ c'.shared.bonds) (hid : b'.id = b.id) (hbefore : b.state ≠ .forfeited)
    (hafter : b'.state = .forfeited) :
    (∃ t, b'.slashedAt = some t ∧ claimWindowSeconds cfg ≤ c'.shared.now - t) ∧
      b'.payoutInvoice = none := by
  have hcons := reach_consistent hext hc
  have hsame : c'.shared.bonds = c.shared.bonds → False := by
    intro hbonds
    obtain rfl := hcons.bond_unique (hbonds ▸ hb') hb hid
    exact hbefore hafter
  rcases System.step_shared hm hs with ⟨l,hl⟩ | ⟨l,op,ch,hnext,hd,hexec⟩ | ⟨e,_,he⟩
  · exact (hsame (launch_rowsKept hl).bonds).elim
  · have hk := reach_knowing hext hc hnext
    have he := exec_effect ext l.tid op ch c.shared
    have hnow := exec_now ext l.tid op ch c.shared
    have hexec : c'.shared = (exec ext l.tid op ch c.shared).1 := hexec
    rw [← hexec] at he hnow
    rcases he.rows with hrows | ⟨st,_,hst⟩ | ⟨st,rfl,hst⟩
    · exact (hsame hrows.bonds).elim
    · exact (hsame (by rw [hst,orderStmt_bonds])).elim
    · obtain ⟨Γ,hn,hΓ⟩ := hk.need
      rw [hst] at hb'
      obtain ⟨⟨t,rfl⟩,rfl,hpending,hinvoice⟩ :=
        forfeited_by hcons hn hΓ hb hb' hid hbefore hafter
      have hpays : l.req.paysBonds = true := hn
      have hlate := (payouts_watched cfg ext).pre hext hc hnext hpays b.id t rfl
      have hfetched := List.all_eq_true.mp hd b hb
      simp only [bne_self_eq_false,hpending,hinvoice,Option.isSome_none,Bool.or_self,Bool.false_or,
        beq_iff_eq] at hfetched
      exact ⟨⟨t,hfetched,hnow.symm ▸ hlate⟩,hinvoice⟩
  · exact (hsame (env_moves he).rowsKept.bonds).elim

/-- The slice 11 of a closed range becomes forfeited; `p` says what its row then holds. -/
def forfeitsSlice (p : State → Bond → Bool) (s s' : State) : Bool :=
  (s.bonds.any fun b => b.id == 11 && b.state != .forfeited)
    && s'.bonds.any fun b => b.id == 11 && b.state == .forfeited && p s' b

theorem forfeitsSlice_spec {p : State → Bond → Bool} {s s' : State}
    (h : forfeitsSlice p s s' = true) : (∃ b ∈ s.bonds, b.id = 11 ∧ b.state ≠ .forfeited) ∧
      ∃ b ∈ s'.bonds, b.id = 11 ∧ b.state = .forfeited ∧ p s' b = true := by
  simpa [forfeitsSlice,and_assoc] using h

theorem unclaimed_slice_forfeited :
    ∃ c, (daemon (bondSettings .make 1000) plainExternals).Reach forfeitsAsFetched State.Initial c ∧
      ∃ b ∈ c.shared.bonds, b.id = 11 ∧ b.state = .forfeited ∧ ∃ t, b.slashedAt = some t ∧
        claimWindowSeconds (bondSettings .make 1000) ≤ c.shared.now - t := by
  obtain ⟨c,c',hc,hm,hs,h⟩ := step_of_schedule (bondSettings .make 1000) plainExternals
    forfeitsAsFetched
    (resolvedRange ++ .env (.tick 1300000) :: alone 13 (.job .processBondPayouts) 3)
    (.step 0 .ok) (forfeitsSlice fun _ _ => true) (by decide +kernel)
  obtain ⟨⟨b,hb,hid,hbefore⟩,b',hb',hid',hafter,_⟩ := forfeitsSlice_spec h
  obtain ⟨⟨t,ht,hwin⟩,_⟩ := forfeited_after_window plainExternals_documented hc hm hs hb hb'
    (hid'.trans hid.symm) hbefore hafter
  exact ⟨c',.step hc hm hs,b',hb',hid',hafter,t,ht,hwin⟩

/-- The daemon stops after a slice was slashed and before its range is closed, and starts again
when the claim window is over: a payout pass fetches the slice, the sweep for stranded maker bonds
closes the range and starts the window of the slice anew, and the pass forfeits it at once. -/
theorem slice_forfeited_at_close :
    ∃ c c' e, (daemon (bondSettings .make 1000) plainExternals).Reach System.Demand.none
      State.Initial c ∧
      (daemon (bondSettings .make 1000) plainExternals).step c e = some c' ∧
      (∃ b ∈ c.shared.bonds, b.id = 11 ∧ b.state ≠ .forfeited) ∧
      ∃ b ∈ c'.shared.bonds, b.id = 11 ∧ b.state = .forfeited ∧
        b.slashedAt = some c'.shared.now ∧ 0 < claimWindowSeconds (bondSettings .make 1000) := by
  obtain ⟨c,c',hc,_,hs,h⟩ := step_of_schedule (bondSettings .make 1000) plainExternals
    System.Demand.none (disputedRange ++ alone 10 (.rpc (.cancel 1 { slashSeller := true })) 17
      ++ [.env .crash,.env (.tick 1300000)] ++ alone 12 (.job .processBondPayouts) 1
      ++ .start ⟨13,.job .reconcileStrandedMakerBonds⟩ :: steps 1 12 ++ steps 0 2)
    (.step 0 .ok) (forfeitsSlice fun s b => b.slashedAt == some s.now) (by decide +kernel)
  obtain ⟨hb,b',hb',hid',hafter,hat⟩ := forfeitsSlice_spec h
  exact ⟨c,c',_,hc,hs,hb,b',hb',hid',hafter,beq_iff_eq.mp hat,by decide⟩

end Mostro
