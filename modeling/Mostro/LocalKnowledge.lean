import Mathlib.Data.Set.Basic
import Mostro.InterleavedPrograms

set_option autoImplicit false

/-!
Programs that act on what they have learnt.  A discipline says which facts an answer teaches, and
what a program must know before it performs an operation; whether a program follows a discipline
is decided by its text alone, without any state.  A meaning of the facts that no step of the
system destroys then turns "every program follows the discipline" into an invariant of all runs,
so several invariants can be read off one analysis of the programs.
-/

namespace Interleaving

/-- What answers an operation may get, what they teach, and what must be known before it. -/
structure Discipline (Op : Type) (Res : Op → Type) (Fact : Type) where
  need : Set Fact → Op → Prop
  need_mono : ∀ {Γ Γ' : Set Fact} {op : Op}, Γ ⊆ Γ' → need Γ op → need Γ' op
  answers : (op : Op) → Res op → Prop
  learn : (op : Op) → Res op → Set Fact

variable {σ L Op : Type} {Res : Op → Type} {Fact ε Ch Env α β : Type}

/-- The program, started with the knowledge `Γ`, knows what it must before each operation. -/
def Prog.Follows (d : Discipline Op Res Fact) : Set Fact → Prog Op Res ε α → Prop
  | _, .ret _ => True
  | _, .fail _ => True
  | Γ, .call op k => d.need Γ op ∧ ∀ r, d.answers op r → Follows d (Γ ∪ d.learn op r) (k r)

namespace Prog

variable {d : Discipline Op Res Fact} {Γ Γ' : Set Fact}

@[simp] theorem follows_ret {a : α} : Follows d Γ (ret a : Prog Op Res ε α) := trivial

@[simp] theorem follows_fail {e : ε} : Follows d Γ (fail e : Prog Op Res ε α) := trivial

theorem Follows.mono {p : Prog Op Res ε α} (h : p.Follows d Γ) (hΓ : Γ ⊆ Γ') :
    p.Follows d Γ' := by
  induction p generalizing Γ Γ' with
  | ret a => trivial
  | fail e => trivial
  | call op k ih =>
    refine ⟨d.need_mono hΓ h.1,fun r hr => ?_⟩
    exact ih r (h.2 r hr) (Set.union_subset_union_left _ hΓ)

theorem Follows.seq {p : Prog Op Res ε α} {f : α → Prog Op Res ε β} (hp : p.Follows d Γ)
    (hf : ∀ a, (f a).Follows d Γ) : (p.bind f).Follows d Γ := by
  induction p generalizing Γ with
  | ret a => exact hf a
  | fail e => trivial
  | call op k ih =>
    refine ⟨hp.1,fun r hr => ih r (hp.2 r hr) fun a => ?_⟩
    exact (hf a).mono Set.subset_union_left

theorem Follows.attempt_seq {p : Prog Op Res ε α} {f : Except ε α → Prog Op Res ε β}
    (hp : p.Follows d Γ) (hf : ∀ r, (f r).Follows d Γ) : (p.attempt.bind f).Follows d Γ := by
  induction p generalizing Γ with
  | ret a => exact hf _
  | fail e => exact hf _
  | call op k ih =>
    refine ⟨hp.1,fun r hr => ih r (hp.2 r hr) fun a => ?_⟩
    exact (hf a).mono Set.subset_union_left

theorem Follows.ignore {p : Prog Op Res ε α} (hp : p.Follows d Γ) : p.ignore.Follows d Γ :=
  hp.attempt_seq fun _ => follows_ret

theorem Follows.when {c : Bool} {p : Prog Op Res ε Unit} (hp : c = true → p.Follows d Γ) :
    (Prog.when c p).Follows d Γ := by
  cases c with
  | true => exact hp rfl
  | false => trivial

theorem Follows.forEach {xs : List α} {f : α → Prog Op Res ε Unit}
    (hf : ∀ a ∈ xs, (f a).Follows d Γ) : (Prog.forEach xs f).Follows d Γ := by
  induction xs with
  | nil => trivial
  | cons a rest ih =>
    exact (hf a (by simp)).seq fun _ => ih fun b hb => hf b (by simp [hb])

theorem Follows.weaken {d' : Discipline Op Res Fact} {p : Prog Op Res ε α} (h : p.Follows d Γ)
    (hneed : ∀ Γ op, d.need Γ op → d'.need Γ op)
    (hanswers : ∀ op r, d'.answers op r → d.answers op r)
    (hlearn : ∀ op r, d'.learn op r = d.learn op r) : p.Follows d' Γ := by
  induction p generalizing Γ with
  | ret a => trivial
  | fail e => trivial
  | call op k ih =>
    refine ⟨hneed Γ op h.1,fun r hr => ?_⟩
    rw [hlearn]
    exact ih r (h.2 r (hanswers op r hr))

end Prog

namespace System

variable {S : System σ L Op Res ε Ch Env} {D : Demand σ L Op Ch Env}

/-- An invariant carried by what the tasks know: their code follows the discipline, and starting
a task, each operation where the facts it needs hold, and each move of the environment keep the
invariant and the meaning of what running tasks may know. -/
structure Upholds (S : System σ L Op Res ε Ch Env) (D : Demand σ L Op Ch Env)
    (d : L → Discipline Op Res Fact) (Inv : σ → Prop) (Means : L → Fact → σ → Prop)
    (init : σ → Prop) : Prop where
  init : ∀ s, init s → Inv s
  code : ∀ l, (S.code l).Follows (d l) ∅
  launch : ∀ l s s', Inv s → S.launch l s = some s' →
    Inv s' ∧ ∀ l f, Means l f s → Means l f s'
  op : ∀ l Γ op ch ls s, (d l).need Γ op → (∀ f ∈ Γ, Means l f s) → Inv s →
    D.onOp l op ch ls s →
    Inv (S.exec l op ch s).1 ∧
      (∀ l' ∈ ls, ∀ f, Means l' f s → Means l' f (S.exec l op ch s).1) ∧
      (d l).answers op (S.exec l op ch s).2 ∧
      ∀ f ∈ (d l).learn op (S.exec l op ch s).2, Means l f (S.exec l op ch s).1
  env : ∀ e ls s s', Inv s → D.onEnv e ls s → S.env e s = some s' →
    Inv s' ∧ ∀ l ∈ ls, ∀ f, Means l f s → Means l f s'

def Knows (d : L → Discipline Op Res Fact) (Means : L → Fact → σ → Prop) (s : σ)
    (t : Task L Op Res ε) : Prop :=
  ∃ Γ, t.code.Follows (d t.label) Γ ∧ ∀ f ∈ Γ, Means t.label f s

section

variable {d : L → Discipline Op Res Fact} {Inv : σ → Prop} {Means : L → Fact → σ → Prop}
variable {init : σ → Prop} {c c' : Config σ L Op Res ε}

theorem Knows.mono {s s' : σ} {t : Task L Op Res ε} (h : Knows d Means s t)
    (hm : ∀ f, Means t.label f s → Means t.label f s') : Knows d Means s' t := by
  obtain ⟨Γ,hp,hΓ⟩ := h
  exact ⟨Γ,hp,fun f hf => hm f (hΓ f hf)⟩

theorem Upholds.step (h : Upholds S D d Inv Means init) {e : Event L Ch Env}
    (hi : Inv c.shared) (hk : ∀ t ∈ c.tasks, Knows d Means c.shared t) (hm : Meets D c e)
    (hs : S.step c e = some c') :
    Inv c'.shared ∧ ∀ t ∈ c'.tasks, Knows d Means c'.shared t := by
  cases e with
  | start l =>
    simp only [System.step] at hs
    split at hs
    · obtain ⟨s,hl,rfl⟩ := Option.map_eq_some_iff.mp hs
      obtain ⟨hi',hmeans⟩ := h.launch l c.shared s hi hl
      refine ⟨hi',fun t ht => ?_⟩
      rcases List.mem_append.mp ht with ht | ht
      · exact (hk t ht).mono (hmeans _)
      · rw [mem_residue ht]
        exact ⟨∅,h.code l,by simp⟩
    · cases hs
  | step i ch =>
    simp only [System.step] at hs
    split at hs
    next l op k hget =>
      cases hs
      have hl : ⟨l,.call op k⟩ ∈ c.tasks := List.mem_of_getElem? hget
      obtain ⟨Γ,hp,hΓ⟩ := hk _ hl
      have hd : D.onOp l op ch c.running c.shared := by simpa only [Meets,hget] using hm
      obtain ⟨hi',hmeans,hans,hlearn⟩ := h.op l Γ op ch c.running c.shared hp.1 hΓ hi hd
      have hkeep : ∀ t ∈ c.tasks, Knows d Means (S.exec l op ch c.shared).1 t := fun t ht =>
        (hk t ht).mono (hmeans _ (List.mem_map_of_mem ht))
      refine ⟨hi',fun t ht => ?_⟩
      simp only [List.mem_append] at ht
      rcases ht with (ht | ht) | ht
      · exact hkeep t (List.mem_of_mem_take ht)
      · rw [mem_residue ht]
        refine ⟨_,hp.2 _ hans,fun f hf => ?_⟩
        rcases hf with hf | hf
        · exact hmeans l (List.mem_map_of_mem hl) f (hΓ f hf)
        · exact hlearn f hf
      · exact hkeep t (List.mem_of_mem_drop ht)
    · cases hs
  | env e =>
    obtain ⟨s,he,rfl⟩ := Option.map_eq_some_iff.mp hs
    obtain ⟨hi',hmeans⟩ := h.env e _ c.shared s hi hm he
    refine ⟨hi',fun t ht => ?_⟩
    split at ht
    · cases ht
    · exact (hk t ht).mono (hmeans _ (List.mem_map_of_mem ht))

theorem Upholds.knows (h : Upholds S D d Inv Means init) (hc : S.Reach D init c) :
    Inv c.shared ∧ ∀ t ∈ c.tasks, Knows d Means c.shared t := by
  induction hc with
  | init hs => exact ⟨h.init _ hs,by simp⟩
  | step _ hm hs ih => exact h.step ih.1 ih.2 hm hs

theorem Upholds.invariant (h : Upholds S D d Inv Means init) (hc : S.Reach D init c) :
    Inv c.shared :=
  (h.knows hc).1

theorem Upholds.about_to (h : Upholds S D d Inv Means init) (hc : S.Reach D init c) {l : L}
    {op : Op} {k : Res op → Prog Op Res ε Unit} (ht : ⟨l,.call op k⟩ ∈ c.tasks) :
    ∃ Γ, (d l).need Γ op ∧ ∀ f ∈ Γ, Means l f c.shared := by
  obtain ⟨Γ,hp,hΓ⟩ := (h.knows hc).2 _ ht
  exact ⟨Γ,hp.1,hΓ⟩

theorem Upholds.lasts (h : Upholds S D d Inv Means init) {P : σ → Prop}
    (hlaunch : ∀ l s s', Inv s → S.launch l s = some s' → P s → P s')
    (hop : ∀ l Γ op ch ls s, (d l).need Γ op → (∀ f ∈ Γ, Means l f s) → Inv s →
      D.onOp l op ch ls s → P s → P (S.exec l op ch s).1)
    (henv : ∀ e ls s s', Inv s → D.onEnv e ls s → S.env e s = some s' → P s → P s')
    (hc : S.Reach D init c) (hr : S.Run D c c') (hp : P c.shared) : P c'.shared := by
  induction hr with
  | refl => exact hp
  | @step c₁ c₂ e hr hm hs ih =>
    obtain ⟨hi,hk⟩ := h.knows (hc.run hr)
    cases e with
    | start l =>
      simp only [System.step] at hs
      split at hs
      · obtain ⟨s,hl,rfl⟩ := Option.map_eq_some_iff.mp hs
        exact hlaunch l _ s hi hl ih
      · cases hs
    | step i ch =>
      simp only [System.step] at hs
      split at hs
      next l op k hget =>
        cases hs
        obtain ⟨Γ,hf,hΓ⟩ := hk _ (List.mem_of_getElem? hget)
        exact hop l Γ op ch c₁.running _ hf.1 hΓ hi (by simpa only [Meets,hget] using hm) ih
      · cases hs
    | env e =>
      obtain ⟨s,he,rfl⟩ := Option.map_eq_some_iff.mp hs
      exact henv e _ _ s hi hm he ih

end

end System

end Interleaving
