import Mostro.DaemonInvariants

set_option autoImplicit false

/-!
The child of a range order.  A Release with a remainder inserts a copy of the order it has read;
the copy is a newly published order exactly when the trade has left no marks on what was read.
-/

namespace Mostro

open Interleaving

/-- A Release finds the marks that are given for its task on the order it is about. -/
abbrev releasesRead (m : Nat → TradeMarks) : Requirement := .check
  (fun l op _ _ s => match l.req, op with
    | .message (.release id _ _),.query q =>
        !q.mayRead id || s.orders.all fun r => r.order.id != id || r.order.marks == m l.tid
    | _,_ => true)
  (fun _ _ _ => true)

def ReadMarks (m : Nat → TradeMarks) (l : Label) : Fact → Prop
  | .order x => ∀ sender next, l.req = .message (.release x.id sender next) →
      x.status = .fiatSent ∨ x.status = .dispute → x.marks = m l.tid
  | _ => True

theorem releasesRead_invariant (ext : Externals) (m : Nat → TradeMarks) :
    StepInvariant ext (releasesRead m) (fun _ => True) (fun l f _ => ReadMarks m l f) where
  init _ _ := trivial
  launch _ _ _ _ _ _ _ := ⟨trivial,fun _ _ _ hf => hf⟩
  op _ _ _ _ _ _ _ _ _ _ _ _ := ⟨trivial,fun _ _ _ _ hf => hf⟩
  env _ _ _ _ _ _ _ _ := ⟨trivial,fun _ _ _ _ hf => hf⟩
  learn l Γ op ch ls s f hn hΓ hc hi hd hc' hi' hf hseen := by
    cases f with
    | order x =>
      intro sender next hreq hst
      rcases order_learnt hf with ⟨q,rfl,hq,_,r,hr,rfl⟩ | ⟨o,rfl,hx⟩
      · simp only [System.Demand.check,hreq,hq,Bool.not_true,Bool.false_or,
          List.all_eq_true] at hd
        simpa using hd r hr
      · -- an order that was just inserted is not yet under way
        rw [hx] at hst
        rcases hn.2.2.1 with h | h <;> simp [h] at hst
    | _ => trivial

def takenRange : Schedule :=
  alone 0 (.message (.newOrder ⟨some .sell,0,0,some 10,some 100,none,100000⟩ 7 7 7 none)) 5
  ++ quoted 2 (.message (.takeSell ⟨1,8,8,none,some 40,some 50⟩)) 3 5000 9
  ++ .env (.accept 3 100) :: alone 4 (.escrowInvoice 3) 6

end Mostro
