import Mostro.DaemonInvariants
import Mostro.Obligations

set_option autoImplicit false

/-!
Contracts for the tasks of the daemon.  Wherever a task is about to perform an operation, the rows
are consistent and the task knows what its discipline asks for; a contract adds what some tasks
rely on while they run, and is then shown by following their code.
-/

namespace Mostro

open Interleaving

variable {op : Op} {s : State} {T : State → Prop} {e : MostroError}

structure Knowing (l : Label) (op : Op) (ls : List Label) (s : State) : Prop where
  running : l ∈ ls
  consistent : Consistent s
  need : ∃ Γ, op.need l.req Γ ∧ ∀ f ∈ Γ, f.Lasts s

theorem reach_knowing {cfg : Settings} {ext : Externals} {D : Requirement} (hext : ext.Documented)
    {c : DaemonState} (hc : (daemon cfg ext).Reach D State.Initial c) {l : Label}
    (hnext : c.AboutTo l op) : Knowing l op c.running c.shared := by
  refine ⟨System.running_of_aboutTo hnext,reach_consistent hext hc,?_⟩
  obtain ⟨k,ht⟩ := hnext
  obtain ⟨Γ,hn,hΓ⟩ := ((trivial_invariant ext D).upholds hext cfg).about_to hc ht
  exact ⟨Γ,hn,fun f hf => (hΓ f hf).1⟩

theorem Knowing.bondsProgress {l : Label} {ls : List Label} {s' : State} (h : Knowing l op ls s)
    (he : Effect l.tid op s s') : BondsProgress s s' := by
  obtain ⟨Γ,hn,hΓ⟩ := h.need
  exact bondsProgress_effect h.consistent hn hΓ he

def Op.isOrder : Op → Bool
  | .order _ => true
  | _ => false

theorem Effect.orders_of_not {tid : Nat} {s' : State} (he : Effect tid op s s')
    (h : op.isOrder = false) : s'.orders = s.orders := by
  rcases he.rows with hk | ⟨st,rfl,_⟩ | ⟨st,_,rfl⟩
  · exact hk.orders
  · cases h
  · exact bondStmt_orders st s

/-- A contract that binds some tasks to perform their operations only where `P` holds, relying on
`R` between two of them. -/
def watching (B : Label → Prop) (R : Label → State → State → Prop)
    (P : Label → Op → State → Prop) : Contract State Label Op where
  Binds := B
  Rely := R
  Known := Knowing
  Pre := P
  Idle _ _ := True

/-- What has to be shown for such a contract: the steps of others, of new tasks and of the
environment are ones a bound task relies on, and its code keeps to the contract. -/
structure Watched (cfg : Settings) (ext : Externals) (D : Requirement) (B : Label → Prop)
    (R : Label → State → State → Prop) (P : Label → Op → State → Prop) : Prop where
  refl : ∀ l s, R l s s
  trans : ∀ l s₁ s₂ s₃, R l s₁ s₂ → R l s₂ s₃ → R l s₁ s₃
  launch : ∀ (l : Label) s s', l.launch cfg s = some s' → ∀ l', B l' → R l' s s'
  other : ∀ (l l' : Label) op ch ls s, l.coexist l' = true → l' ∈ ls → B l' →
    Knowing l op ls s → D.onOp l op ch ls s → Effect l.tid op s (exec ext l.tid op ch s).1 →
    R l' s (exec ext l.tid op ch s).1
  env : ∀ e ls s s', D.onEnv e ls s → Moves s e s' → ∀ l ∈ ls, B l → R l s s'
  code : ∀ (l : Label) s, B l →
    (daemon cfg ext).Sat D (watching B R P) l (l.req.code cfg ext) (fun _ _ => True) s

theorem Watched.pre {cfg : Settings} {ext : Externals} {D : Requirement} {B : Label → Prop}
    {R : Label → State → State → Prop} {P : Label → Op → State → Prop} (h : Watched cfg ext D B R P)
    (hext : ext.Documented) {c : DaemonState} (hc : (daemon cfg ext).Reach D State.Initial c)
    {l : Label} (hnext : c.AboutTo l op) (hb : B l) : P l op c.shared := by
  have hkeeps : System.Keeps (daemon cfg ext) D (watching B R P) State.Initial :=
    { rely_refl := h.refl
      rely_trans := h.trans
      distinct := fun l => by simp [daemon,Label.coexist]
      init := fun _ _ _ _ => trivial
      start := fun l s s' hl l' _ hb => ⟨h.launch l s s' hl l' hb,id⟩
      code := fun l s s' hb _ _ => h.code l s' hb
      other := fun l l' op ch ls s hco _ hl hb hk _ hd =>
        h.other l l' op ch ls s hco hl hb hk hd (exec_effect ext l.tid op ch s)
      idle := fun _ _ _ _ _ _ _ _ _ _ _ => trivial
      env := fun e ls s s' hd he => ⟨fun _ l hb =>
        ⟨fun hl => h.env e ls s s' hd (env_moves he) l hl hb,id⟩,fun _ _ _ => trivial⟩ }
  exact hkeeps.pre (fun c hc l op hnext => reach_knowing hext hc hnext) hc hnext hb

section

variable {cfg : Settings} {ext : Externals} {D : Requirement} {K : Contract State Label Op}
variable {l : Label} {α β : Type}

theorem daemon_exec {ch : Choice} : (daemon cfg ext).exec l op ch s = exec ext l.tid op ch s := rfl

theorem sat_ask {Q : Except MostroError op.Out → State → Prop} (hs : T s)
    (hT : ∀ s s', K.Rely l s s' → T s → T s')
    (hstep : ∀ s ls, T s → K.Known l op ls s → K.Pre l op s ∧ ∀ ch, D.onOp l op ch ls s →
      Q (exec ext l.tid op ch s).2 (exec ext l.tid op ch s).1) :
    (daemon cfg ext).Sat D K l (ask op) Q s := by
  intro s₁ ls hr hk
  obtain ⟨hpre,hrest⟩ := hstep s₁ ls (hT s s₁ hr hs) hk
  refine ⟨hpre,fun ch hd => ?_⟩
  have hrest := hrest ch hd
  rw [daemon_exec]
  cases heq : (exec ext l.tid op ch s₁).2 with
  | ok a => rwa [heq] at hrest
  | error e => rwa [heq] at hrest

theorem sat_ask_bind {f : op.Out → M β} {Q : Except MostroError β → State → Prop} (hs : T s)
    (hT : ∀ s s', K.Rely l s s' → T s → T s')
    (hstep : ∀ s ls, T s → K.Known l op ls s → K.Pre l op s ∧ ∀ ch, D.onOp l op ch ls s →
      (∀ a, (exec ext l.tid op ch s).2 = .ok a →
        (daemon cfg ext).Sat D K l (f a) Q (exec ext l.tid op ch s).1) ∧
      ∀ e, (exec ext l.tid op ch s).2 = .error e → Q (.error e) (exec ext l.tid op ch s).1) :
    (daemon cfg ext).Sat D K l ((ask op).bind f) Q s := by
  intro s₁ ls hr hk
  obtain ⟨hpre,hrest⟩ := hstep s₁ ls (hT s s₁ hr hs) hk
  refine ⟨hpre,fun ch hd => ?_⟩
  obtain ⟨hok,herr⟩ := hrest ch hd
  rw [daemon_exec]
  cases heq : (exec ext l.tid op ch s₁).2 with
  | ok a => exact hok a heq
  | error e => exact herr e heq

theorem sat_ask_attempt_bind {f : Except MostroError op.Out → M β}
    {Q : Except MostroError β → State → Prop} (hs : T s) (hT : ∀ s s', K.Rely l s s' → T s → T s')
    (hstep : ∀ s ls, T s → K.Known l op ls s → K.Pre l op s ∧ ∀ ch, D.onOp l op ch ls s →
      (daemon cfg ext).Sat D K l (f (exec ext l.tid op ch s).2) Q (exec ext l.tid op ch s).1) :
    (daemon cfg ext).Sat D K l ((ask op).attempt.bind f) Q s := by
  intro s₁ ls hr hk
  obtain ⟨hpre,hrest⟩ := hstep s₁ ls (hT s s₁ hr hs) hk
  refine ⟨hpre,fun ch hd => ?_⟩
  have hrest := hrest ch hd
  rw [daemon_exec]
  cases heq : (exec ext l.tid op ch s₁).2 with
  | ok a => rwa [heq] at hrest
  | error e => rwa [heq] at hrest

theorem sat_bind_assoc {γ : Type} {p : M α} {f : α → M β} {g : β → M γ}
    {Q : Except MostroError γ → State → Prop}
    (h : (daemon cfg ext).Sat D K l (p.bind fun a => (f a).bind g) Q s) :
    (daemon cfg ext).Sat D K l ((p.bind f).bind g) Q s := by
  rwa [Prog.bind_assoc]

theorem sat_assoc_bind {γ : Type} {p : M α} {f : α → M β} {g : β → M γ}
    {Q : Except MostroError γ → State → Prop}
    (h : (daemon cfg ext).Sat D K l ((p.bind f).bind g) Q s) :
    (daemon cfg ext).Sat D K l (p.bind fun a => (f a).bind g) Q s := by
  rwa [Prog.bind_assoc] at h

theorem sat_require_bind {v : Option α} {f : α → M β} {Q : Except MostroError β → State → Prop}
    (hsome : ∀ a, v = some a → (daemon cfg ext).Sat D K l (f a) Q s)
    (hnone : v = none → Q (.error e) s) :
    (daemon cfg ext).Sat D K l ((require v e).bind f) Q s := by
  cases v with
  | none => exact hnone rfl
  | some a => exact hsome a rfl

theorem sat_ensure_bind {c : Bool} {f : Unit → M β} {Q : Except MostroError β → State → Prop}
    (hpass : c = true → (daemon cfg ext).Sat D K l (f ()) Q s) (hfail : c = false → Q (.error e) s) :
    (daemon cfg ext).Sat D K l ((ensure c e).bind f) Q s := by
  cases c with
  | false => exact hfail rfl
  | true => exact hpass rfl

end

section

variable {cfg : Settings} {ext : Externals} {D : Requirement} {K : Contract State Label Op}
variable {l : Label} {Δ : Type} {Debt : Δ → State → Prop} {Debtor : Δ → Label → Prop}

theorem honest_ask_attempt_bind {f : Except MostroError op.Out → M Unit} (hs : T s)
    (hT : ∀ s s', K.Rely l s s' → T s → T s')
    (hstep : ∀ s ls, T s → K.Known l op ls s → ∀ ch, D.onOp l op ch ls s →
      (∀ δ, Debt δ (exec ext l.tid op ch s).1 → Debt δ s ∨ Debtor δ l ∧
        (daemon cfg ext).Sat D K l (f (exec ext l.tid op ch s).2) (fun _ s => ¬ Debt δ s)
          (exec ext l.tid op ch s).1) ∧
      (daemon cfg ext).Honest D K Debt Debtor l (f (exec ext l.tid op ch s).2)
        (exec ext l.tid op ch s).1) :
    (daemon cfg ext).Honest D K Debt Debtor l ((ask op).attempt.bind f) s := by
  intro s₁ ls hr hk ch hd
  obtain ⟨hdebt,hhonest⟩ := hstep s₁ ls (hT s s₁ hr hs) hk ch hd
  refine ⟨fun δ hδ => ?_,?_⟩
  · rcases hdebt δ hδ with hold | ⟨hl,hsat⟩
    · exact .inl hold
    · refine .inr ⟨hl,?_⟩
      rw [daemon_exec]
      cases heq : (exec ext l.tid op ch s₁).2 with
      | ok a => rwa [heq] at hsat
      | error e => rwa [heq] at hsat
  · rw [daemon_exec]
    cases heq : (exec ext l.tid op ch s₁).2 with
    | ok a => rwa [heq] at hhonest
    | error e => rwa [heq] at hhonest

theorem honest_require_bind {α : Type} {v : Option α} {f : α → M Unit}
    (h : ∀ a, v = some a → (daemon cfg ext).Honest D K Debt Debtor l (f a) s) :
    (daemon cfg ext).Honest D K Debt Debtor l ((require v e).bind f) s := by
  cases v with
  | none => trivial
  | some a => exact h a rfl

theorem honest_ensure_bind {b : Bool} {f : Unit → M Unit}
    (h : b = true → (daemon cfg ext).Honest D K Debt Debtor l (f ()) s) :
    (daemon cfg ext).Honest D K Debt Debtor l ((ensure b e).bind f) s := by
  cases b with
  | false => trivial
  | true => exact h rfl

theorem ask_bind_eq {α : Type} (f : op.Out → M α) :
    (ask op).bind f = (ask op).attempt.bind fun r => match r with
      | .ok a => f a
      | .error e => .fail e := by
  refine congrArg (Prog.call op) (funext fun r => ?_)
  cases r <;> rfl

theorem honest_ask_bind {f : op.Out → M Unit} (hs : T s) (hT : ∀ s s', K.Rely l s s' → T s → T s')
    (hstep : ∀ s ls, T s → K.Known l op ls s → ∀ ch, D.onOp l op ch ls s →
      (∀ δ, Debt δ (exec ext l.tid op ch s).1 → Debt δ s ∨ Debtor δ l ∧
        ∃ a, (exec ext l.tid op ch s).2 = .ok a ∧
          (daemon cfg ext).Sat D K l (f a) (fun _ s => ¬ Debt δ s) (exec ext l.tid op ch s).1) ∧
      ∀ a, (exec ext l.tid op ch s).2 = .ok a →
        (daemon cfg ext).Honest D K Debt Debtor l (f a) (exec ext l.tid op ch s).1) :
    (daemon cfg ext).Honest D K Debt Debtor l ((ask op).bind f) s := by
  rw [ask_bind_eq]
  refine honest_ask_attempt_bind hs hT fun s ls ht hk ch hd => ?_
  obtain ⟨hdebt,hhonest⟩ := hstep s ls ht hk ch hd
  refine ⟨fun δ hδ => (hdebt δ hδ).imp_right ?_,?_⟩
  · rintro ⟨hl,a,heq,hsat⟩
    refine ⟨hl,?_⟩
    rwa [heq]
  · cases hres : (exec ext l.tid op ch s).2 with
    | ok a => exact hhonest a hres
    | error e => trivial

end

end Mostro
