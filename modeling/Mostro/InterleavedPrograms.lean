import Mathlib.Data.List.Basic

set_option autoImplicit false

/-!
Programs over a signature of atomic operations, and the interleaved runs of a pool of such
programs over one shared state.  A program is a tree whose nodes are the operations it performs
and whose branches are the answers it may get, so a handler written with `do` keeps the shape of
its source while the semantics decides what happens between two of its operations.
-/

namespace Interleaving

/-- A program over operations `Op`, each answered by a value of `Res op`.  It ends with a result
or with an error; between two operations any other program may run. -/
inductive Prog (Op : Type) (Res : Op → Type) (ε α : Type) : Type where
  | ret (a : α)
  | fail (e : ε)
  | call (op : Op) (k : Res op → Prog Op Res ε α)

namespace Prog

variable {Op : Type} {Res : Op → Type} {ε α β : Type}

def bind : Prog Op Res ε α → (α → Prog Op Res ε β) → Prog Op Res ε β
  | ret a, f => f a
  | fail e, _ => fail e
  | call op k, f => call op fun r => (k r).bind f

instance : Monad (Prog Op Res ε) where
  pure := ret
  bind := bind

def perform (op : Op) : Prog Op Res ε (Res op) := call op ret

/-- Runs `p` and hands its result or its error to the caller as a value. -/
def attempt : Prog Op Res ε α → Prog Op Res ε (Except ε α)
  | ret a => ret (.ok a)
  | fail e => ret (.error e)
  | call op k => call op fun r => (k r).attempt

/-- Runs `p` for its effects and ignores how it ended. -/
def ignore (p : Prog Op Res ε α) : Prog Op Res ε Unit := p.attempt.bind fun _ => ret ()

def when (c : Bool) (p : Prog Op Res ε Unit) : Prog Op Res ε Unit := if c then p else ret ()

/-- Runs `f` on each element in turn; the first error ends the loop. -/
def forEach : List α → (α → Prog Op Res ε Unit) → Prog Op Res ε Unit
  | [], _ => ret ()
  | a :: rest, f => (f a).bind fun _ => forEach rest f

def finished : Prog Op Res ε α → Bool
  | ret _ => true
  | fail _ => true
  | call _ _ => false

@[simp] theorem pure_eq (a : α) : (pure a : Prog Op Res ε α) = ret a := rfl

@[simp] theorem bind_eq (p : Prog Op Res ε α) (f : α → Prog Op Res ε β) :
    (p >>= f) = p.bind f := rfl

@[simp] theorem ret_bind (a : α) (f : α → Prog Op Res ε β) : (ret a).bind f = f a := rfl

@[simp] theorem fail_bind (e : ε) (f : α → Prog Op Res ε β) :
    (fail e : Prog Op Res ε α).bind f = fail e := rfl

@[simp] theorem call_bind (op : Op) (k : Res op → Prog Op Res ε α) (f : α → Prog Op Res ε β) :
    (call op k).bind f = call op fun r => (k r).bind f := rfl

@[simp] theorem perform_bind (op : Op) (f : Res op → Prog Op Res ε β) :
    (perform op).bind f = call op f := rfl

theorem bind_assoc {γ : Type} (p : Prog Op Res ε α) (f : α → Prog Op Res ε β)
    (g : β → Prog Op Res ε γ) : (p.bind f).bind g = p.bind fun a => (f a).bind g := by
  induction p with
  | ret a => rfl
  | fail e => rfl
  | call op k ih =>
    simp only [call_bind]
    exact congrArg _ (funext ih)

theorem attempt_bind {γ : Type} (p : Prog Op Res ε α) (f : α → Prog Op Res ε β)
    (g : Except ε β → Prog Op Res ε γ) :
    (p.bind f).attempt.bind g = p.attempt.bind fun r => match r with
      | .ok a => (f a).attempt.bind g
      | .error e => g (.error e) := by
  induction p with
  | ret a => rfl
  | fail e => rfl
  | call op k ih =>
    simp only [call_bind,attempt]
    exact congrArg _ (funext ih)

theorem ignore_bind (p : Prog Op Res ε α) (f : Unit → Prog Op Res ε β) :
    p.ignore.bind f = p.attempt.bind fun _ => f () := bind_assoc _ _ _

end Prog

/-- A system of tasks over a shared state.  `exec` performs one operation of the task labelled
`l` under a choice of the environment, `launch` says whether a task may start and what its start
does to the shared state, and tasks that do not `coexist` are never alive together.  An
environment move that `kills` removes every running task. -/
structure System (σ L Op : Type) (Res : Op → Type) (ε Ch Env : Type) where
  exec : L → (op : Op) → Ch → σ → σ × Res op
  code : L → Prog Op Res ε Unit
  launch : L → σ → Option σ
  coexist : L → L → Bool
  env : Env → σ → Option σ
  kills : Env → Bool

structure Task (L Op : Type) (Res : Op → Type) (ε : Type) where
  label : L
  code : Prog Op Res ε Unit

structure Config (σ L Op : Type) (Res : Op → Type) (ε : Type) where
  shared : σ
  tasks : List (Task L Op Res ε)

def Config.running {σ L Op : Type} {Res : Op → Type} {ε : Type}
    (c : Config σ L Op Res ε) : List L :=
  c.tasks.map Task.label

def Config.AboutTo {σ L Op : Type} {Res : Op → Type} {ε : Type} (c : Config σ L Op Res ε) (l : L)
    (op : Op) : Prop := ∃ k, (⟨l,.call op k⟩ : Task L Op Res ε) ∈ c.tasks

def Config.anyNext {σ L Op : Type} {Res : Op → Type} {ε : Type} (c : Config σ L Op Res ε)
    (p : L → Op → Bool) : Bool :=
  c.tasks.any fun t => match t.code with
    | .call op _ => p t.label op
    | _ => false

theorem Config.exists_aboutTo {σ L Op : Type} {Res : Op → Type} {ε : Type}
    {c : Config σ L Op Res ε} {p : L → Op → Bool} (h : c.anyNext p = true) :
    ∃ l op, c.AboutTo l op ∧ p l op = true := by
  obtain ⟨⟨l,code⟩,ht,hp⟩ := List.any_eq_true.mp h
  cases code with
  | call op k => exact ⟨l,op,⟨k,ht⟩,hp⟩
  | _ => cases hp

/-- What may happen next: a task starts, the `i`-th running task performs its next operation
under a choice of the environment, or the environment moves on its own. -/
inductive Event (L Ch Env : Type) where
  | start (l : L)
  | step (i : Nat) (c : Ch)
  | env (e : Env)

namespace System

variable {σ L Op : Type} {Res : Op → Type} {ε Ch Env : Type} (S : System σ L Op Res ε Ch Env)

def residue (l : L) (p : Prog Op Res ε Unit) : List (Task L Op Res ε) :=
  if p.finished then [] else [⟨l,p⟩]

/-- One event; `none` when it cannot happen. -/
def step (c : Config σ L Op Res ε) : Event L Ch Env → Option (Config σ L Op Res ε)
  | .start l =>
    if c.tasks.all fun t => S.coexist l t.label && S.coexist t.label l then
      (S.launch l c.shared).map fun s => ⟨s,c.tasks ++ residue l (S.code l)⟩
    else none
  | .step i ch =>
    match c.tasks[i]? with
    | some ⟨l,.call op k⟩ =>
      let out := S.exec l op ch c.shared
      some ⟨out.1,c.tasks.take i ++ residue l (k out.2) ++ c.tasks.drop (i + 1)⟩
    | _ => none
  | .env e => (S.env e c.shared).map fun s => ⟨s,if S.kills e then [] else c.tasks⟩

/-- What is required of the events of a run: a condition on each operation performed, with the
task that performs it, the choice made, the tasks that are running and the state before it, and
one on each environment move. -/
structure Demand (σ L Op Ch Env : Type) where
  onOp : L → Op → Ch → List L → σ → Prop
  onEnv : Env → List L → σ → Prop

def Demand.none : Demand σ L Op Ch Env := ⟨fun _ _ _ _ _ => True,fun _ _ _ => True⟩

/-- The event meets the demand in the configuration it happens in. -/
def Meets (D : Demand σ L Op Ch Env) (c : Config σ L Op Res ε) : Event L Ch Env → Prop
  | .start _ => True
  | .step i ch =>
    match c.tasks[i]? with
    | some ⟨l,.call op _⟩ => D.onOp l op ch c.running c.shared
    | _ => True
  | .env e => D.onEnv e c.running c.shared

/-- The configurations of the runs that start in a state of `init` with no task alive and all of
whose events meet the demand. -/
inductive Reach (D : Demand σ L Op Ch Env) (init : σ → Prop) : Config σ L Op Res ε → Prop
  | init {s : σ} : init s → Reach D init ⟨s,[]⟩
  | step {c c' : Config σ L Op Res ε} {e : Event L Ch Env} :
      Reach D init c → Meets D c e → S.step c e = some c' → Reach D init c'

/-- The configurations a run may come to from `c` by events that meet the demand. -/
inductive Run (D : Demand σ L Op Ch Env) (c : Config σ L Op Res ε) : Config σ L Op Res ε → Prop
  | refl : Run D c c
  | step {c' c'' : Config σ L Op Res ε} {e : Event L Ch Env} :
      Run D c c' → Meets D c' e → S.step c' e = some c'' → Run D c c''

/-- A demand that can be evaluated, so that a list of events can be checked against it. -/
class Demand.Checkable (D : Demand σ L Op Ch Env) where
  onOp : ∀ l op ch ls s, Decidable (D.onOp l op ch ls s)
  onEnv : ∀ e ls s, Decidable (D.onEnv e ls s)

instance (D : Demand σ L Op Ch Env) [D.Checkable] (l : L) (op : Op) (ch : Ch) (ls : List L)
    (s : σ) : Decidable (D.onOp l op ch ls s) := Demand.Checkable.onOp l op ch ls s

instance (D : Demand σ L Op Ch Env) [D.Checkable] (e : Env) (ls : List L) (s : σ) :
    Decidable (D.onEnv e ls s) := Demand.Checkable.onEnv e ls s

instance : (Demand.none : Demand σ L Op Ch Env).Checkable where
  onOp _ _ _ _ _ := .isTrue trivial
  onEnv _ _ _ := .isTrue trivial

def Demand.check (onOp : L → Op → Ch → List L → σ → Bool) (onEnv : Env → List L → σ → Bool) :
    Demand σ L Op Ch Env :=
  ⟨fun l op ch ls s => onOp l op ch ls s = true,fun e ls s => onEnv e ls s = true⟩

instance (onOp : L → Op → Ch → List L → σ → Bool) (onEnv : Env → List L → σ → Bool) :
    (Demand.check onOp onEnv).Checkable where
  onOp l op ch ls s := inferInstanceAs (Decidable (onOp l op ch ls s = true))
  onEnv e ls s := inferInstanceAs (Decidable (onEnv e ls s = true))

instance Meets.decide (D : Demand σ L Op Ch Env) [D.Checkable] (c : Config σ L Op Res ε) :
    (e : Event L Ch Env) → Decidable (Meets D c e)
  | .start _ => .isTrue trivial
  | .step i ch =>
    match h : c.tasks[i]? with
    | some ⟨l,.call op _⟩ =>
      decidable_of_iff (D.onOp l op ch c.running c.shared) (by simp [Meets,h])
    | some ⟨_,.ret _⟩ => .isTrue (by simp [Meets,h])
    | some ⟨_,.fail _⟩ => .isTrue (by simp [Meets,h])
    | none => .isTrue (by simp [Meets,h])
  | .env e => inferInstanceAs (Decidable (D.onEnv e c.running c.shared))

def play (D : Demand σ L Op Ch Env) [D.Checkable] (c : Config σ L Op Res ε) :
    List (Event L Ch Env) → Option (Config σ L Op Res ε)
  | [] => some c
  | e :: rest => if Meets D c e then (S.step c e).bind fun c' => play D c' rest else none

variable {S} {D : Demand σ L Op Ch Env} {init : σ → Prop} {c c' : Config σ L Op Res ε}

theorem Reach.run (h : S.Reach D init c) (hr : S.Run D c c') : S.Reach D init c' := by
  induction hr with
  | refl => exact h
  | step _ hm hs ih => exact .step ih hm hs

theorem Run.head {e : Event L Ch Env} {d : Config σ L Op Res ε} (hm : Meets D c e)
    (hs : S.step c e = some d) (hr : S.Run D d c') : S.Run D c c' := by
  induction hr with
  | refl => exact .step .refl hm hs
  | step _ hm' hs' ih => exact .step ih hm' hs'

theorem run_of_play [D.Checkable] {es : List (Event L Ch Env)} (hp : S.play D c es = some c') :
    S.Run D c c' := by
  induction es generalizing c with
  | nil =>
    cases hp
    exact .refl
  | cons e rest ih =>
    unfold play at hp
    split at hp
    next hm =>
      obtain ⟨d,hd,hrest⟩ := Option.bind_eq_some_iff.mp hp
      exact .head hm hd (ih hrest)
    · cases hp

/-- The demand, and that each operation is performed where `J` holds of it. -/
def Demand.given (D : Demand σ L Op Ch Env) (J : L → Op → List L → σ → Prop) :
    Demand σ L Op Ch Env :=
  ⟨fun l op ch ls s => D.onOp l op ch ls s ∧ J l op ls s,D.onEnv⟩

theorem running_of_aboutTo {l : L} {op : Op} (h : c.AboutTo l op) : l ∈ c.running := by
  obtain ⟨k,ht⟩ := h
  exact List.mem_map.mpr ⟨_,ht,rfl⟩

/-- What an event does to the shared state: a task starts, a task performs an operation that meets
the demand, or the environment moves. -/
theorem step_shared {e : Event L Ch Env} (hm : Meets D c e) (hs : S.step c e = some c') :
    (∃ l, S.launch l c.shared = some c'.shared) ∨
    (∃ l op ch, c.AboutTo l op ∧ D.onOp l op ch c.running c.shared ∧
      c'.shared = (S.exec l op ch c.shared).1) ∨
    ∃ e, D.onEnv e c.running c.shared ∧ S.env e c.shared = some c'.shared := by
  cases e with
  | start l =>
    simp only [step] at hs
    split at hs
    · obtain ⟨s,hl,rfl⟩ := Option.map_eq_some_iff.mp hs
      exact .inl ⟨l,hl⟩
    · cases hs
  | step i ch =>
    simp only [step] at hs
    split at hs
    next l op k hget =>
      cases hs
      refine .inr (.inl ⟨l,op,ch,⟨k,List.mem_of_getElem? hget⟩,?_,rfl⟩)
      simpa only [Meets,hget] using hm
    · cases hs
  | env e =>
    obtain ⟨s,he,rfl⟩ := Option.map_eq_some_iff.mp hs
    exact .inr (.inr ⟨e,hm,he⟩)

theorem Reach.weaken (h : S.Reach D init c) : S.Reach .none init c := by
  induction h with
  | init hs => exact .init hs
  | @step c c' e _ _ hs ih =>
    refine .step ih ?_ hs
    cases e with
    | start l => trivial
    | step i ch =>
      simp only [Meets]
      split <;> trivial
    | env e => trivial

theorem Reach.given {J : L → Op → List L → σ → Prop}
    (hJ : ∀ c, S.Reach D init c → ∀ l op, c.AboutTo l op → J l op c.running c.shared)
    (h : S.Reach D init c) : S.Reach (D.given J) init c := by
  induction h with
  | init hs => exact .init hs
  | @step c c' e hr hm hs ih =>
    refine .step ih ?_ hs
    cases e with
    | start l => trivial
    | step i ch =>
      simp only [Meets] at hm ⊢
      split at hm
      next l op k hget => exact ⟨hm,hJ c hr l op ⟨k,List.mem_of_getElem? hget⟩⟩
      · trivial
    | env e => exact hm

theorem mem_residue {l : L} {p : Prog Op Res ε Unit} {t : Task L Op Res ε} (h : t ∈ residue l p) :
    t = ⟨l,p⟩ := by
  unfold residue at h
  split at h
  · cases h
  · exact List.mem_singleton.mp h

theorem Reach.together {I : σ → Prop} {P : L → σ → Prop} (hinit : ∀ s, init s → I s)
    (hlaunch : ∀ l s s', S.launch l s = some s' → I s → I s' ∧ P l s' ∧ ∀ l', P l' s → P l' s')
    (hop : ∀ c, S.Reach D init c → ∀ l op ch, c.AboutTo l op → D.onOp l op ch c.running c.shared →
      I c.shared → (∀ l' ∈ c.running, P l' c.shared) →
      I (S.exec l op ch c.shared).1 ∧ ∀ l' ∈ c.running, P l' (S.exec l op ch c.shared).1)
    (henv : ∀ e ls s s', D.onEnv e ls s → S.env e s = some s' → I s →
      I s' ∧ ∀ l', P l' s → P l' s')
    (h : S.Reach D init c) : I c.shared ∧ ∀ l ∈ c.running, P l c.shared := by
  induction h with
  | init hs => exact ⟨hinit _ hs,fun l hl => absurd hl List.not_mem_nil⟩
  | @step c _ e hc hm hs ih =>
    obtain ⟨hi,hall⟩ := ih
    have hold {t : Task L Op Res ε} (ht : t ∈ c.tasks) : t.label ∈ c.running :=
      List.mem_map.mpr ⟨t,ht,rfl⟩
    cases e with
    | start l =>
      simp only [System.step] at hs
      split at hs
      · obtain ⟨s,hstart,rfl⟩ := Option.map_eq_some_iff.mp hs
        obtain ⟨hi',hnew,hkeep⟩ := hlaunch l _ _ hstart hi
        refine ⟨hi',fun l' hl' => ?_⟩
        obtain ⟨t,ht,rfl⟩ := List.mem_map.mp hl'
        rcases List.mem_append.mp ht with ht | ht
        · exact hkeep _ (hall _ (hold ht))
        · rw [mem_residue ht]
          exact hnew
      · cases hs
    | step i ch =>
      simp only [System.step] at hs
      split at hs
      next l op k hget =>
        cases hs
        have hmem := List.mem_of_getElem? hget
        have hd : D.onOp l op ch c.running c.shared := by simpa only [Meets,hget] using hm
        obtain ⟨hi',hkeep⟩ := hop c hc l op ch ⟨k,hmem⟩ hd hi hall
        refine ⟨hi',fun l' hl' => hkeep l' ?_⟩
        obtain ⟨t,ht,rfl⟩ := List.mem_map.mp hl'
        rcases List.mem_append.mp ht with ht | ht
        · rcases List.mem_append.mp ht with ht | ht
          · exact hold (List.mem_of_mem_take ht)
          · rw [mem_residue ht]
            exact hold (t := ⟨l,.call op k⟩) hmem
        · exact hold (List.mem_of_mem_drop ht)
      · cases hs
    | env e =>
      obtain ⟨s,he,rfl⟩ := Option.map_eq_some_iff.mp hs
      obtain ⟨hi',hkeep⟩ := henv e _ _ _ hm he hi
      refine ⟨hi',fun l' hl' => ?_⟩
      obtain ⟨t,ht,rfl⟩ := List.mem_map.mp hl'
      refine hkeep _ (hall _ (hold ?_))
      by_cases hk : S.kills e = true
      · simp [hk] at ht
      · simpa [hk] using ht

theorem Reach.running {P : L → σ → Prop}
    (hlaunch : ∀ l s s', S.launch l s = some s' → P l s' ∧ ∀ l', P l' s → P l' s')
    (hop : ∀ l op ch s l', P l' s → P l' (S.exec l op ch s).1)
    (henv : ∀ e s s' l', S.env e s = some s' → P l' s → P l' s')
    (h : S.Reach D init c) : ∀ l ∈ c.running, P l c.shared :=
  (h.together (I := fun _ => True) (fun _ _ => trivial)
    (fun l s s' hl _ => ⟨trivial,hlaunch l s s' hl⟩)
    (fun c _ l op ch _ _ _ hall => ⟨trivial,fun l' hl' => hop l op ch c.shared l' (hall l' hl')⟩)
    fun e _ s s' _ he _ => ⟨trivial,fun l' => henv e s s' l' he⟩).2

theorem exists_reach_of_play [D.Checkable] {s : σ} (es : List (Event L Ch Env))
    {P : Config σ L Op Res ε → Prop} [DecidablePred P] (hs : init s)
    (hp : (S.play D ⟨s,[]⟩ es).any (fun c => decide (P c)) = true) :
    ∃ c, S.Reach D init c ∧ P c := by
  cases hc : S.play D ⟨s,[]⟩ es with
  | none => simp [hc] at hp
  | some c => exact ⟨c,(Reach.init hs).run (run_of_play hc),by simpa [hc] using hp⟩

end System

end Interleaving
