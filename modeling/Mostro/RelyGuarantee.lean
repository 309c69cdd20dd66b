import Mathlib.Data.List.Basic
import Mostro.InterleavedPrograms

set_option autoImplicit false

/-!
Rely-guarantee reasoning for interleaved programs.  A contract binds some of the tasks: it says
what a task relies on between two of its operations, what is known of any operation about to be
performed, what must hold where a bound task performs an operation, and what holds of its label
while no task carries it.  Code that keeps the contract from every state it may start in keeps it
in every run.
-/

namespace Interleaving

structure Contract (σ L Op : Type) where
  Binds : L → Prop
  Rely : L → σ → σ → Prop
  Known : L → Op → List L → σ → Prop
  Pre : L → Op → σ → Prop
  Idle : L → σ → Prop

variable {σ L Op : Type} {Res : Op → Type} {ε Ch Env α β : Type}

namespace System

variable (S : System σ L Op Res ε Ch Env) (D : Demand σ L Op Ch Env) (K : Contract σ L Op)

/-- Run by the task `l` from the state `s`, with any interference the task relies on before each
operation, the program performs every operation where it may, and ends in `Q`. -/
def Sat (l : L) : Prog Op Res ε α → (Except ε α → σ → Prop) → σ → Prop
  | .ret a, Q, s => Q (.ok a) s
  | .fail e, Q, s => Q (.error e) s
  | .call op k, Q, s => ∀ s₁ ls, K.Rely l s s₁ → K.Known l op ls s₁ →
      K.Pre l op s₁ ∧ ∀ ch, D.onOp l op ch ls s₁ →
        Sat l (k (S.exec l op ch s₁).2) Q (S.exec l op ch s₁).1

variable {S D K} {l : L}

@[simp] theorem sat_ret {a : α} {Q : Except ε α → σ → Prop} {s : σ} :
    S.Sat D K l (.ret a) Q s ↔ Q (.ok a) s := Iff.rfl

@[simp] theorem sat_fail {e : ε} {Q : Except ε α → σ → Prop} {s : σ} :
    S.Sat D K l (.fail e) Q s ↔ Q (.error e) s := Iff.rfl

theorem Sat.mono {p : Prog Op Res ε α} {Q Q' : Except ε α → σ → Prop} {s : σ}
    (h : S.Sat D K l p Q s) (hQ : ∀ r s, Q r s → Q' r s) : S.Sat D K l p Q' s := by
  induction p generalizing s with
  | ret a => exact hQ _ _ h
  | fail e => exact hQ _ _ h
  | call op k ih =>
    intro s₁ ls hr hk
    obtain ⟨hpre,hrest⟩ := h s₁ ls hr hk
    exact ⟨hpre,fun ch hd => ih _ (hrest ch hd)⟩

theorem Sat.and {p : Prog Op Res ε α} {Q Q' : Except ε α → σ → Prop} {s : σ}
    (h : S.Sat D K l p Q s) (h' : S.Sat D K l p Q' s) :
    S.Sat D K l p (fun r s => Q r s ∧ Q' r s) s := by
  induction p generalizing s with
  | ret a => exact ⟨h,h'⟩
  | fail e => exact ⟨h,h'⟩
  | call op k ih =>
    intro s₁ ls hr hk
    obtain ⟨hpre,hrest⟩ := h s₁ ls hr hk
    exact ⟨hpre,fun ch hd => ih _ (hrest ch hd) ((h' s₁ ls hr hk).2 ch hd)⟩

/-- Sequential composition: the rest runs from where the first part ended, and an error of the
first part is the error of the whole. -/
theorem Sat.bind {p : Prog Op Res ε α} {f : α → Prog Op Res ε β} {Q : Except ε β → σ → Prop}
    {s : σ}
    (h : S.Sat D K l p (fun r s => match r with
      | .ok a => S.Sat D K l (f a) Q s
      | .error e => Q (.error e) s) s) : S.Sat D K l (p.bind f) Q s := by
  induction p generalizing s with
  | ret a => exact h
  | fail e => exact h
  | call op k ih =>
    intro s₁ ls hr hk
    obtain ⟨hpre,hrest⟩ := h s₁ ls hr hk
    exact ⟨hpre,fun ch hd => ih _ (hrest ch hd)⟩

theorem Sat.attempt {p : Prog Op Res ε α} {Q : Except ε (Except ε α) → σ → Prop} {s : σ}
    (h : S.Sat D K l p (fun r s => Q (.ok r) s) s) : S.Sat D K l p.attempt Q s := by
  induction p generalizing s with
  | ret a => exact h
  | fail e => exact h
  | call op k ih =>
    intro s₁ ls hr hk
    obtain ⟨hpre,hrest⟩ := h s₁ ls hr hk
    exact ⟨hpre,fun ch hd => ih _ (hrest ch hd)⟩

theorem Sat.ignore {p : Prog Op Res ε α} {Q : Except ε Unit → σ → Prop} {s : σ}
    (h : S.Sat D K l p (fun _ s => Q (.ok ()) s) s) : S.Sat D K l p.ignore Q s :=
  Sat.bind (Sat.attempt (h.mono fun _ _ hq => hq))

theorem Sat.forEach {xs : List α} {f : α → Prog Op Res ε Unit} {P : σ → Prop} {s : σ}
    (hs : P s)
    (hf : ∀ a ∈ xs, ∀ s, P s → S.Sat D K l (f a) (fun _ s => P s) s) :
    S.Sat D K l (Prog.forEach xs f) (fun _ s => P s) s := by
  induction xs generalizing s with
  | nil => exact hs
  | cons a rest ih =>
    refine Sat.bind ((hf a (by simp) s hs).mono ?_)
    intro r s' hs'
    cases r with
    | ok _ => exact ih hs' fun b hb => hf b (by simp [hb])
    | error _ => exact hs'

/-- A loop whose rounds do not fail deals with each element in turn; `I` says what is left to do. -/
theorem Sat.forEach_rest {xs : List α} {f : α → Prog Op Res ε Unit} {I : List α → σ → Prop} {s : σ}
    (hs : I xs s)
    (hf : ∀ a rest s, I (a :: rest) s →
      S.Sat D K l (f a) (fun r s => r = .ok () ∧ I rest s) s) :
    S.Sat D K l (Prog.forEach xs f) (fun r s => r = .ok () ∧ I [] s) s := by
  induction xs generalizing s with
  | nil => exact ⟨rfl,hs⟩
  | cons a rest ih =>
    refine Sat.bind ((hf a rest s hs).mono ?_)
    rintro r s' ⟨rfl,hs'⟩
    exact ih hs'

end System

/-- Every operation the program may perform, whatever the answers, satisfies `P`. -/
def Prog.Only (P : Op → Prop) : Prog Op Res ε α → Prop
  | .ret _ => True
  | .fail _ => True
  | .call op k => P op ∧ ∀ r, Only P (k r)

namespace Prog

variable {P : Op → Prop}

@[simp] theorem only_ret {a : α} : Only P (ret a : Prog Op Res ε α) := trivial

@[simp] theorem only_fail {e : ε} : Only P (fail e : Prog Op Res ε α) := trivial

@[simp] theorem only_call {op : Op} {k : Res op → Prog Op Res ε α} :
    Only P (call op k) ↔ P op ∧ ∀ r, Only P (k r) := Iff.rfl

@[simp] theorem only_perform {op : Op} :
    Only P (perform op : Prog Op Res ε (Res op)) ↔ P op := by simp [perform]

theorem only_true (p : Prog Op Res ε α) : p.Only fun _ => True := by
  induction p with
  | ret a => trivial
  | fail e => trivial
  | call op k ih => exact ⟨trivial,ih⟩

theorem Only.mono {Q : Op → Prop} {p : Prog Op Res ε α} (h : p.Only P) (hPQ : ∀ op, P op → Q op) :
    p.Only Q := by
  induction p with
  | ret a => trivial
  | fail e => trivial
  | call op k ih => exact ⟨hPQ _ h.1,fun r => ih r (h.2 r)⟩

theorem Only.bind {p : Prog Op Res ε α} {f : α → Prog Op Res ε β} (hp : p.Only P)
    (hf : ∀ a, (f a).Only P) : (p.bind f).Only P := by
  induction p with
  | ret a => exact hf a
  | fail e => trivial
  | call op k ih => exact ⟨hp.1,fun r => ih r (hp.2 r)⟩

theorem Only.attempt {p : Prog Op Res ε α} (hp : p.Only P) : p.attempt.Only P := by
  induction p with
  | ret a => trivial
  | fail e => trivial
  | call op k ih => exact ⟨hp.1,fun r => ih r (hp.2 r)⟩

theorem Only.ignore {p : Prog Op Res ε α} (hp : p.Only P) : p.ignore.Only P :=
  hp.attempt.bind fun _ => trivial

theorem Only.forEach {xs : List α} {f : α → Prog Op Res ε Unit} (hf : ∀ a, (f a).Only P) :
    (Prog.forEach xs f).Only P := by
  induction xs with
  | nil => trivial
  | cons a rest ih => exact (hf a).bind fun _ => ih

end Prog

def Prog.Succeeds : Prog Op Res ε α → Prop
  | .ret _ => True
  | .fail _ => False
  | .call _ k => ∀ r, Succeeds (k r)

namespace Prog

theorem Succeeds.bind {p : Prog Op Res ε α} {f : α → Prog Op Res ε β} (hp : p.Succeeds)
    (hf : ∀ a, (f a).Succeeds) : (p.bind f).Succeeds := by
  induction p with
  | ret a => exact hf a
  | fail e => exact hp.elim
  | call op k ih => exact fun r => ih r (hp r)

theorem attempt_succeeds (p : Prog Op Res ε α) : p.attempt.Succeeds := by
  induction p with
  | ret a => trivial
  | fail e => trivial
  | call op k ih => exact ih

theorem ignore_succeeds (p : Prog Op Res ε α) : p.ignore.Succeeds :=
  p.attempt_succeeds.bind fun _ => trivial

theorem Succeeds.forEach {xs : List α} {f : α → Prog Op Res ε Unit} (hf : ∀ a, (f a).Succeeds) :
    (Prog.forEach xs f).Succeeds := by
  induction xs with
  | nil => trivial
  | cons a rest ih => exact (hf a).bind fun _ => ih

end Prog

namespace System

variable {S : System σ L Op Res ε Ch Env} {D : Demand σ L Op Ch Env} {K : Contract σ L Op} {l : L}

/-- A program all of whose operations may be performed in any state that satisfies `T`, and keep
it, keeps the contract as a whole. -/
theorem Sat.of_only {p : Prog Op Res ε α} {P : Op → Prop} {T : σ → Prop} {s : σ}
    (hp : p.Only P) (hs : T s) (hT : ∀ s s', T s → K.Rely l s s' → T s')
    (hop : ∀ op ls s, P op → T s → K.Known l op ls s → K.Pre l op s ∧
      ∀ ch, D.onOp l op ch ls s → T (S.exec l op ch s).1) :
    S.Sat D K l p (fun _ s => T s) s := by
  induction p generalizing s with
  | ret a => exact hs
  | fail e => exact hs
  | call op k ih =>
    intro s₁ ls hr hk
    obtain ⟨hpre,hrest⟩ := hop op ls s₁ hp.1 (hT s s₁ hs hr) hk
    exact ⟨hpre,fun ch hd => ih _ (hp.2 _) (hrest ch hd)⟩

/-- After a first part that cannot fail, and all of whose operations keep `T`, the rest runs from a
state that satisfies `T`. -/
theorem Sat.bind_succeeds {p : Prog Op Res ε α} {f : α → Prog Op Res ε β}
    {Q : Except ε β → σ → Prop} {P : Op → Prop} {T : σ → Prop} {s : σ} (hp : p.Only P)
    (hend : p.Succeeds) (hs : T s) (hT : ∀ s s', T s → K.Rely l s s' → T s')
    (hop : ∀ op ls s, P op → T s → K.Known l op ls s → K.Pre l op s ∧
      ∀ ch, D.onOp l op ch ls s → T (S.exec l op ch s).1)
    (hf : ∀ a s, T s → S.Sat D K l (f a) Q s) : S.Sat D K l (p.bind f) Q s := by
  induction p generalizing s with
  | ret a => exact hf a s hs
  | fail e => exact hend.elim
  | call op k ih =>
    intro s₁ ls hr hk
    obtain ⟨hpre,hrest⟩ := hop op ls s₁ hp.1 (hT s s₁ hs hr) hk
    exact ⟨hpre,fun ch hd => ih _ (hp.2 _) (hend _) (hrest ch hd)⟩

/-- What has to be shown for a contract to hold in every run: what the other tasks, as far as they
keep the contract themselves, and the environment do is what a bound task relies on, and the code of
every bound task keeps the contract. -/
structure Keeps (S : System σ L Op Res ε Ch Env) (D : Demand σ L Op Ch Env)
    (K : Contract σ L Op) (init : σ → Prop) : Prop where
  rely_refl : ∀ l s, K.Rely l s s
  rely_trans : ∀ l s₁ s₂ s₃, K.Rely l s₁ s₂ → K.Rely l s₂ s₃ → K.Rely l s₁ s₃
  distinct : ∀ l, S.coexist l l = false
  init : ∀ s, init s → ∀ l, K.Binds l → K.Idle l s
  start : ∀ l s s', S.launch l s = some s' → ∀ l', l' ≠ l → K.Binds l' →
    K.Rely l' s s' ∧ (K.Idle l' s → K.Idle l' s')
  code : ∀ l s s', K.Binds l → K.Idle l s → S.launch l s = some s' →
    S.Sat D K l (S.code l) (fun _ s => K.Idle l s) s'
  other : ∀ l l' op ch ls s, S.coexist l l' = true → S.coexist l' l = true → l' ∈ ls →
    K.Binds l' → K.Known l op ls s → (K.Binds l → K.Pre l op s) → D.onOp l op ch ls s →
    K.Rely l' s (S.exec l op ch s).1
  idle : ∀ l l' op ch ls s, l' ≠ l → K.Binds l' → K.Known l op ls s → D.onOp l op ch ls s →
    K.Idle l' s → K.Idle l' (S.exec l op ch s).1
  env : ∀ e ls s s', D.onEnv e ls s → S.env e s = some s' →
    (S.kills e = false → ∀ l, K.Binds l →
      (l ∈ ls → K.Rely l s s') ∧ (K.Idle l s → K.Idle l s')) ∧
    (S.kills e = true → ∀ l, K.Binds l → K.Idle l s')

/-- The tasks may be alive together. -/
def Coexist (S : System σ L Op Res ε Ch Env) (tasks : List (Task L Op Res ε)) : Prop :=
  (tasks.map (·.label)).Pairwise fun l l' => S.coexist l l' = true ∧ S.coexist l' l = true

structure Holds (S : System σ L Op Res ε Ch Env) (D : Demand σ L Op Ch Env) (K : Contract σ L Op)
    (c : Config σ L Op Res ε) : Prop where
  sat : ∀ t ∈ c.tasks, K.Binds t.label → ∃ s, K.Rely t.label s c.shared ∧
    S.Sat D K t.label t.code (fun _ s => K.Idle t.label s) s
  apart : S.Coexist c.tasks
  idle : ∀ l, K.Binds l → (∀ t ∈ c.tasks, t.label ≠ l) → K.Idle l c.shared

theorem Sat.idle_of_residue {p : Prog Op Res ε Unit} {l : L} {s : σ}
    (h : S.Sat D K l p (fun _ s => K.Idle l s) s) (hr : residue l p = []) : K.Idle l s := by
  cases p with
  | ret a => exact h
  | fail e => exact h
  | call op k => simp [residue,Prog.finished] at hr

theorem residue_eq_nil_or (l : L) (p : Prog Op Res ε Unit) :
    residue l p = [] ∨ residue l p = [⟨l,p⟩] := by
  unfold residue
  split <;> simp

section

variable {init : σ → Prop} {c c' : Config σ L Op Res ε} {before after : List (Task L Op Res ε)}
variable {p : Prog Op Res ε Unit}

theorem Coexist.start (h : S.Coexist c.tasks)
    (hl : ∀ t ∈ c.tasks, S.coexist l t.label = true ∧ S.coexist t.label l = true) :
    S.Coexist (c.tasks ++ residue l p) := by
  rcases residue_eq_nil_or l p with hr | hr <;> rw [hr]
  · rwa [List.append_nil]
  · simp only [Coexist,List.map_append,List.map_cons,List.map_nil]
    refine List.pairwise_append.mpr ⟨h,List.pairwise_singleton _ _,fun x hx y hy => ?_⟩
    obtain ⟨t,ht,rfl⟩ := List.mem_map.mp hx
    rw [List.mem_singleton.mp hy]
    exact (hl t ht).symm

theorem Coexist.others (h : S.Coexist (before ++ ⟨l,p⟩ :: after)) {t : Task L Op Res ε}
    (ht : t ∈ before ∨ t ∈ after) : S.coexist l t.label = true ∧ S.coexist t.label l = true := by
  obtain ⟨-,hafter,hbefore⟩ := List.pairwise_append.mp (List.pairwise_map.mp h)
  rcases ht with ht | ht
  · exact (hbefore t ht ⟨l,p⟩ List.mem_cons_self).symm
  · exact (List.pairwise_cons.mp hafter).1 t ht

theorem Coexist.step (h : S.Coexist (before ++ ⟨l,p⟩ :: after)) (q : Prog Op Res ε Unit) :
    S.Coexist (before ++ residue l q ++ after) := by
  rcases residue_eq_nil_or l q with hr | hr <;> rw [hr,List.append_assoc]
  · have hsub : (before ++ after).Sublist (before ++ ⟨l,p⟩ :: after) :=
      (List.Sublist.refl _).append (List.sublist_cons_self _ _)
    exact List.Pairwise.sublist (hsub.map _) h
  · simpa [Coexist] using h

/-- The pool of a step is the tasks before the one that moves, that one, and those after it. -/
theorem step_op {i : Nat} {ch : Ch} (hm : Meets D c (.step i ch : Event L Ch Env))
    (hs : S.step c (.step i ch) = some c') :
    ∃ l op k before after, c.tasks = before ++ ⟨l,.call op k⟩ :: after ∧
      D.onOp l op ch c.running c.shared ∧ c' = ⟨(S.exec l op ch c.shared).1,
        before ++ residue l (k (S.exec l op ch c.shared).2) ++ after⟩ := by
  simp only [System.step] at hs
  split at hs
  next l op k hget =>
    refine ⟨l,op,k,c.tasks.take i,c.tasks.drop (i + 1),?_,?_,(Option.some.inj hs).symm⟩
    · obtain ⟨hlt,hget'⟩ := List.getElem?_eq_some_iff.mp hget
      rw [← hget',List.getElem_cons_drop,List.take_append_drop]
    · simpa only [Meets,hget] using hm
  next => cases hs

theorem Keeps.holds_start (hK : Keeps S D K init) {l : L} (h : Holds S D K c)
    (hs : S.step c (.start l) = some c') : Holds S D K c' := by
  simp only [System.step,List.all_eq_true,Bool.and_eq_true] at hs
  split at hs
  next hco =>
    obtain ⟨s,hl,rfl⟩ := Option.map_eq_some_iff.mp hs
    have hfresh : ∀ t ∈ c.tasks, t.label ≠ l := by
      intro t ht heq
      have := (hco t ht).1
      rw [heq,hK.distinct] at this
      exact Bool.noConfusion this
    have hother := hK.start l c.shared s hl
    have hsat (hb : K.Binds l) := hK.code l c.shared s hb (h.idle l hb hfresh) hl
    refine ⟨fun t ht hb => ?_,?_,fun l' hb hl' => ?_⟩
    · rcases List.mem_append.mp ht with ht | ht
      · obtain ⟨s₀,hr,hp⟩ := h.sat t ht hb
        exact ⟨s₀,hK.rely_trans _ _ _ _ hr (hother t.label (hfresh t ht) hb).1,hp⟩
      · rw [mem_residue ht] at hb ⊢
        exact ⟨s,hK.rely_refl _ _,hsat hb⟩
    · exact Coexist.start h.apart hco
    · by_cases heq : l' = l
      · subst heq
        rcases residue_eq_nil_or l' (S.code l') with hr | hr
        · exact (hsat hb).idle_of_residue hr
        · exact absurd rfl (hl' ⟨l',S.code l'⟩ (by simp [hr]))
      · refine (hother l' heq hb).2 (h.idle l' hb ?_)
        intro t ht
        exact hl' t (List.mem_append_left _ ht)
  next => cases hs

theorem Keeps.holds_op (hK : Keeps S D K init) {i : Nat} {ch : Ch} (h : Holds S D K c)
    (hknown : ∀ l op, c.AboutTo l op → K.Known l op c.running c.shared)
    (hm : Meets D c (.step i ch : Event L Ch Env)) (hs : S.step c (.step i ch) = some c') :
    Holds S D K c' := by
  obtain ⟨l,op,k,before,after,hpool,hd,rfl⟩ := step_op hm hs
  have hapart := h.apart
  rw [hpool] at hapart
  have hk : K.Known l op c.running c.shared := hknown l op ⟨k,by simp [hpool]⟩
  have hnext (hb : K.Binds l) : K.Pre l op c.shared ∧
      S.Sat D K l (k (S.exec l op ch c.shared).2) (fun _ s => K.Idle l s)
        (S.exec l op ch c.shared).1 := by
    obtain ⟨s₀,hr,hsat⟩ := h.sat ⟨l,.call op k⟩ (by simp [hpool]) hb
    exact (hsat c.shared c.running hr hk).imp_right fun hrest => hrest ch hd
  have hstays {t : Task L Op Res ε} (ht : t ∈ before ∨ t ∈ after) (hb : K.Binds t.label) :
      ∃ s, K.Rely t.label s (S.exec l op ch c.shared).1 ∧
        S.Sat D K t.label t.code (fun _ s => K.Idle t.label s) s := by
    have hmem : t ∈ c.tasks := by rw [hpool]; rcases ht with ht | ht <;> simp [ht]
    obtain ⟨s₁,hr₁,hp⟩ := h.sat t hmem hb
    have hco := hapart.others ht
    exact ⟨s₁,hK.rely_trans _ _ _ _ hr₁ (hK.other l t.label op ch c.running _ hco.1 hco.2
      (List.mem_map_of_mem hmem) hb hk (fun hb => (hnext hb).1) hd),hp⟩
  refine ⟨fun t ht hb => ?_,hapart.step _,fun l' hb hl' => ?_⟩
  · simp only [List.mem_append] at ht
    rcases ht with (ht | ht) | ht
    · exact hstays (.inl ht) hb
    · rw [mem_residue ht] at hb ⊢
      exact ⟨_,hK.rely_refl _ _,(hnext hb).2⟩
    · exact hstays (.inr ht) hb
  · by_cases heq : l' = l
    · subst heq
      rcases residue_eq_nil_or l' (k (S.exec l' op ch c.shared).2) with hn | hn
      · exact (hnext hb).2.idle_of_residue hn
      · exact absurd rfl (hl' ⟨l',k (S.exec l' op ch c.shared).2⟩ (by simp [hn]))
    · refine hK.idle l l' op ch c.running _ heq hb hk hd (h.idle l' hb fun t ht => ?_)
      rw [hpool] at ht
      rcases List.mem_append.mp ht with ht | ht
      · exact hl' t (by simp [ht])
      · rcases List.mem_cons.mp ht with rfl | ht
        · exact fun hl => heq hl.symm
        · exact hl' t (by simp [ht])

theorem Keeps.holds_env (hK : Keeps S D K init) {e : Env} (h : Holds S D K c)
    (hm : D.onEnv e c.running c.shared) (hs : S.step c (.env e) = some c') : Holds S D K c' := by
  obtain ⟨s,he,rfl⟩ := Option.map_eq_some_iff.mp hs
  obtain ⟨hlive,hkill⟩ := hK.env e _ c.shared s hm he
  cases hk : S.kills e with
  | true => exact ⟨by simp,.nil,fun l hb _ => hkill hk l hb⟩
  | false =>
    simp only [Bool.false_eq_true,if_false]
    refine ⟨fun t ht hb => ?_,h.apart,fun l hb hl => (hlive hk l hb).2 (h.idle l hb hl)⟩
    obtain ⟨s₀,hr,hp⟩ := h.sat t ht hb
    have hrun : t.label ∈ c.running := List.mem_map_of_mem ht
    exact ⟨s₀,hK.rely_trans _ _ _ _ hr ((hlive hk _ hb).1 hrun),hp⟩

theorem Keeps.holds (hK : Keeps S D K init)
    (hknown : ∀ c, S.Reach D init c → ∀ l op, c.AboutTo l op → K.Known l op c.running c.shared)
    (h : S.Reach D init c) : Holds S D K c := by
  induction h with
  | init hs => exact ⟨by simp,.nil,fun l hb _ => hK.init _ hs l hb⟩
  | @step c c' e hr hm hs ih =>
    cases e with
    | start l => exact hK.holds_start ih hs
    | step i ch => exact hK.holds_op ih (hknown c hr) hm hs
    | env e => exact hK.holds_env ih hm hs

theorem Keeps.pre (hK : Keeps S D K init)
    (hknown : ∀ c, S.Reach D init c → ∀ l op, c.AboutTo l op → K.Known l op c.running c.shared)
    (h : S.Reach D init c) {l : L} {op : Op} (hnext : c.AboutTo l op) (hb : K.Binds l) :
    K.Pre l op c.shared := by
  have hk := hknown c h l op hnext
  obtain ⟨k,ht⟩ := hnext
  obtain ⟨s,hr,hsat⟩ := (hK.holds hknown h).sat _ ht hb
  exact (hsat c.shared c.running hr hk).1

/-- A contract that binds every task and knows an invariant: where each operation is performed as
the contract says, and keeps the invariant there, the invariant holds in every run. -/
theorem Keeps.invariant (hK : Keeps S D K init) {I : σ → Prop} (hbinds : ∀ l, K.Binds l)
    (hknown : ∀ l op ls s, I s → K.Known l op ls s) (hinit : ∀ s, init s → I s)
    (hstart : ∀ l s s', S.launch l s = some s' → I s → I s')
    (hop : ∀ l op ch ls s, K.Pre l op s → D.onOp l op ch ls s → I s → I (S.exec l op ch s).1)
    (henv : ∀ e ls s s', D.onEnv e ls s → S.env e s = some s' → I s → I s')
    (h : S.Reach D init c) : I c.shared ∧ Holds S D K c := by
  induction h with
  | init hs => exact ⟨hinit _ hs,by simp,.nil,fun l hb _ => hK.init _ hs l hb⟩
  | @step c c' e _ hm hs ih =>
    obtain ⟨hi,hholds⟩ := ih
    refine ⟨?_,?_⟩
    · rcases step_shared hm hs with ⟨l,hl⟩ | ⟨l,op,ch,⟨k,ht⟩,hd,heq⟩ | ⟨e,hd,he⟩
      · exact hstart l _ _ hl hi
      · obtain ⟨s,hr,hsat⟩ := hholds.sat _ ht (hbinds l)
        rw [heq]
        exact hop l op ch _ _ (hsat c.shared c.running hr (hknown _ _ _ _ hi)).1 hd hi
      · exact henv e _ _ _ hd he hi
    · cases e with
      | start l => exact hK.holds_start hholds hs
      | step i ch => exact hK.holds_op hholds (fun _ _ _ => hknown _ _ _ _ hi) hm hs
      | env e => exact hK.holds_env hholds hm hs

theorem Reach.only {P : L → Op → Prop} (hdistinct : ∀ l, S.coexist l l = false)
    (hcode : ∀ l, (S.code l).Only (P l)) (h : S.Reach D init c) {l : L} {op : Op}
    (hnext : c.AboutTo l op) : P l op := by
  let K : Contract σ L Op := ⟨fun _ => True,fun _ _ _ => True,fun _ _ _ _ => True,
    fun l op _ => P l op,fun _ _ => True⟩
  have hK : Keeps S D K init :=
    { rely_refl := fun _ _ => trivial
      rely_trans := fun _ _ _ _ _ _ => trivial
      distinct := hdistinct
      init := fun _ _ _ _ => trivial
      start := fun _ _ _ _ _ _ _ => ⟨trivial,id⟩
      code := fun l _ s _ _ _ => Sat.of_only (T := fun _ => True) (hcode l) trivial
        (fun _ _ _ _ => trivial) fun op _ _ hop _ _ => ⟨hop,fun _ _ => trivial⟩
      other := fun _ _ _ _ _ _ _ _ _ _ _ _ _ => trivial
      idle := fun _ _ _ _ _ _ _ _ _ _ h => h
      env := fun _ _ _ _ _ _ => ⟨fun _ _ _ => ⟨fun _ => trivial,id⟩,fun _ _ _ => trivial⟩ }
  exact hK.pre (fun _ _ _ _ _ => trivial) h hnext trivial

end

end System

end Interleaving
