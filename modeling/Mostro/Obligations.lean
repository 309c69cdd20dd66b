import Mostro.RelyGuarantee

set_option autoImplicit false

/-!
Obligations of interleaved programs.  A debt is a condition of the shared state that a task may
bring about only if the rest of its code removes it again.  While every program is honest in this
sense, each debt that is outstanding is owed by a running task.
-/

namespace Interleaving

variable {σ L Op : Type} {Res : Op → Type} {ε Ch Env α β Δ : Type}

def Contract.free : Contract σ L Op :=
  ⟨fun _ => True,fun _ _ _ => True,fun _ _ _ _ => True,fun _ _ _ => True,fun _ _ => True⟩

namespace System

variable (S : System σ L Op Res ε Ch Env) (D : Demand σ L Op Ch Env) (K : Contract σ L Op)
variable (Debt : Δ → σ → Prop) (Debtor : Δ → L → Prop)

/-- Run by the task `l` from the state `s`, with any interference the task relies on, the program
incurs a debt only where the task may owe it and the rest of the program pays it. -/
def Honest (l : L) : Prog Op Res ε Unit → σ → Prop
  | .ret _, _ => True
  | .fail _, _ => True
  | .call op k, s => ∀ s₁ ls, K.Rely l s s₁ → K.Known l op ls s₁ → ∀ ch, D.onOp l op ch ls s₁ →
      (∀ δ, Debt δ (S.exec l op ch s₁).1 → Debt δ s₁ ∨ Debtor δ l ∧
        S.Sat D K l (k (S.exec l op ch s₁).2) (fun _ s => ¬ Debt δ s) (S.exec l op ch s₁).1) ∧
      Honest l (k (S.exec l op ch s₁).2) (S.exec l op ch s₁).1

def Owes (δ : Δ) (t : Task L Op Res ε) (s : σ) : Prop :=
  Debtor δ t.label ∧ ∃ s₀, K.Rely t.label s₀ s ∧
    S.Sat D K t.label t.code (fun _ s => ¬ Debt δ s) s₀

/-- What has to be shown for every outstanding debt to be owed: steps of others are ones a task
relies on, nothing but operations incurs debts, every program is honest, and no move of the
environment kills a task that may owe an outstanding debt. -/
structure Pays (init : σ → Prop) : Prop where
  rely_refl : ∀ l s, K.Rely l s s
  rely_trans : ∀ l s₁ s₂ s₃, K.Rely l s₁ s₂ → K.Rely l s₂ s₃ → K.Rely l s₁ s₃
  init : ∀ s, init s → ∀ δ, ¬ Debt δ s
  start : ∀ l s s', S.launch l s = some s' →
    (∀ l', K.Rely l' s s') ∧ ∀ δ, Debt δ s' → Debt δ s
  code : ∀ l s s', S.launch l s = some s' → S.Honest D K Debt Debtor l (S.code l) s'
  other : ∀ l l' op ch ls s, S.coexist l l' = true → S.coexist l' l = true → l' ∈ ls →
    K.Known l op ls s → D.onOp l op ch ls s → K.Rely l' s (S.exec l op ch s).1
  env : ∀ e ls s s', D.onEnv e ls s → S.env e s = some s' →
    (∀ δ, Debt δ s' → Debt δ s) ∧ (S.kills e = false → ∀ l ∈ ls, K.Rely l s s') ∧
    (S.kills e = true → ∀ δ, Debt δ s → ∀ l ∈ ls, ¬ Debtor δ l)

variable {S D K Debt Debtor} {l : L}

theorem Honest.of_quiet (h : ∀ op ch ls s, K.Known l op ls s → D.onOp l op ch ls s →
    ∀ δ, Debt δ (S.exec l op ch s).1 → Debt δ s) (p : Prog Op Res ε Unit) (s : σ) :
    S.Honest D K Debt Debtor l p s := by
  induction p generalizing s with
  | ret a => trivial
  | fail e => trivial
  | call op k ih =>
    intro s₁ ls hr hk ch hd
    exact ⟨fun δ hδ => .inl (h op ch ls s₁ hk hd δ hδ),ih _ _⟩

theorem Honest.of_only {P : Op → Prop} {p : Prog Op Res ε Unit} {s : σ} (hp : p.Only P)
    (hP : ∀ op ch ls s, P op → K.Known l op ls s → D.onOp l op ch ls s →
      ∀ δ, Debt δ (S.exec l op ch s).1 → Debt δ s) : S.Honest D K Debt Debtor l p s := by
  induction p generalizing s with
  | ret a => trivial
  | fail e => trivial
  | call op k ih =>
    intro s₁ ls hr hk ch hd
    exact ⟨fun δ hδ => .inl (hP op ch ls s₁ hp.1 hk hd δ hδ),ih _ (hp.2 _)⟩

/-- From a state that satisfies `T`, a program all of whose operations keep it and incur no debt
there. -/
theorem Honest.of_kept {T : σ → Prop} {s : σ} (hs : T s) (hT : ∀ s s', T s → K.Rely l s s' → T s')
    (hop : ∀ op ch ls s, T s → K.Known l op ls s → D.onOp l op ch ls s →
      T (S.exec l op ch s).1 ∧ ∀ δ, Debt δ (S.exec l op ch s).1 → Debt δ s)
    (p : Prog Op Res ε Unit) : S.Honest D K Debt Debtor l p s := by
  induction p generalizing s with
  | ret a => trivial
  | fail e => trivial
  | call op k ih =>
    intro s₁ ls hr hk ch hd
    obtain ⟨hkeep,hquiet⟩ := hop op ch ls s₁ (hT s s₁ hs hr) hk hd
    exact ⟨fun δ hδ => .inl (hquiet δ hδ),ih _ hkeep⟩

/-- A first part without operations that incur debts, all of which keep `T`. -/
theorem Honest.bind_keeping {P : Op → Prop} {T : σ → Prop} {p : Prog Op Res ε α}
    {f : α → Prog Op Res ε Unit} {s : σ} (hp : p.Only P) (hs : T s)
    (hT : ∀ s s', T s → K.Rely l s s' → T s')
    (hop : ∀ op ch ls s, P op → T s → K.Known l op ls s → D.onOp l op ch ls s →
      T (S.exec l op ch s).1 ∧ ∀ δ, Debt δ (S.exec l op ch s).1 → Debt δ s)
    (hf : ∀ a s, T s → S.Honest D K Debt Debtor l (f a) s) :
    S.Honest D K Debt Debtor l (p.bind f) s := by
  induction p generalizing s with
  | ret a => exact hf a s hs
  | fail e => trivial
  | call op k ih =>
    intro s₁ ls hr hk ch hd
    obtain ⟨hkeep,hquiet⟩ := hop op ch ls s₁ hp.1 (hT s s₁ hs hr) hk hd
    exact ⟨fun δ hδ => .inl (hquiet δ hδ),ih _ (hp.2 _) hkeep⟩

theorem Honest.bind_only {P : Op → Prop} {p : Prog Op Res ε α} {f : α → Prog Op Res ε Unit}
    {s : σ} (hp : p.Only P) (hP : ∀ op ch ls s, P op → K.Known l op ls s → D.onOp l op ch ls s →
      ∀ δ, Debt δ (S.exec l op ch s).1 → Debt δ s)
    (hf : ∀ a s, S.Honest D K Debt Debtor l (f a) s) :
    S.Honest D K Debt Debtor l (p.bind f) s :=
  .bind_keeping (T := fun _ => True) hp trivial (fun _ _ _ _ => trivial)
    (fun op ch ls s hop _ hk hd => ⟨trivial,hP op ch ls s hop hk hd⟩) fun a s _ => hf a s

section

variable {init : σ → Prop} {c c' : Config σ L Op Res ε}

theorem Owes.rely (hK : Pays S D K Debt Debtor init) {δ : Δ} {t : Task L Op Res ε} {s s' : σ}
    (h : S.Owes D K Debt Debtor δ t s) (hr : K.Rely t.label s s') :
    S.Owes D K Debt Debtor δ t s' := by
  obtain ⟨hd,s₀,h₀,hs⟩ := h
  exact ⟨hd,s₀,hK.rely_trans _ _ _ _ h₀ hr,hs⟩

theorem residue_owes {δ : Δ} {p : Prog Op Res ε Unit} {s : σ}
    (hK : Pays S D K Debt Debtor init) (hl : Debtor δ l) (hδ : Debt δ s)
    (h : S.Sat D K l p (fun _ s => ¬ Debt δ s) s) :
    ∃ t ∈ residue l p, S.Owes D K Debt Debtor δ t s := by
  cases p with
  | ret a => exact absurd hδ h
  | fail e => exact absurd hδ h
  | call op k => exact ⟨⟨l,.call op k⟩,by simp [residue,Prog.finished],hl,s,hK.rely_refl _ _,h⟩

structure Solvent (S : System σ L Op Res ε Ch Env) (D : Demand σ L Op Ch Env) (K : Contract σ L Op)
    (Debt : Δ → σ → Prop) (Debtor : Δ → L → Prop) (c : Config σ L Op Res ε) : Prop where
  apart : S.Coexist c.tasks
  honest : ∀ t ∈ c.tasks, ∃ s, K.Rely t.label s c.shared ∧
    S.Honest D K Debt Debtor t.label t.code s
  owed : ∀ δ, Debt δ c.shared → ∃ t ∈ c.tasks, S.Owes D K Debt Debtor δ t c.shared

theorem Pays.solvent_start (hK : Pays S D K Debt Debtor init) {l : L}
    (h : Solvent S D K Debt Debtor c) (hs : S.step c (.start l) = some c') :
    Solvent S D K Debt Debtor c' := by
  simp only [System.step,List.all_eq_true,Bool.and_eq_true] at hs
  split at hs
  next hco =>
    obtain ⟨s,hl,rfl⟩ := Option.map_eq_some_iff.mp hs
    obtain ⟨hrely,hdebt⟩ := hK.start l c.shared s hl
    refine ⟨Coexist.start h.apart hco,fun t ht => ?_,fun δ hδ => ?_⟩
    · rcases List.mem_append.mp ht with ht | ht
      · obtain ⟨s₀,hr,hp⟩ := h.honest t ht
        exact ⟨s₀,hK.rely_trans _ _ _ _ hr (hrely _),hp⟩
      · rw [mem_residue ht]
        exact ⟨s,hK.rely_refl _ _,hK.code l c.shared s hl⟩
    · obtain ⟨t,ht,ho⟩ := h.owed δ (hdebt δ hδ)
      exact ⟨t,List.mem_append_left _ ht,ho.rely hK (hrely _)⟩
  next => cases hs

theorem Pays.solvent_op (hK : Pays S D K Debt Debtor init) {i : Nat} {ch : Ch}
    (h : Solvent S D K Debt Debtor c)
    (hknown : ∀ l op, c.AboutTo l op → K.Known l op c.running c.shared)
    (hm : Meets D c (.step i ch : Event L Ch Env)) (hs : S.step c (.step i ch) = some c') :
    Solvent S D K Debt Debtor c' := by
  obtain ⟨l,op,k,before,after,hpool,hd,rfl⟩ := step_op hm hs
  have hapart := h.apart
  rw [hpool] at hapart
  have hk : K.Known l op c.running c.shared := hknown l op ⟨k,by simp [hpool]⟩
  have hmem {t : Task L Op Res ε} (ht : t ∈ before ∨ t ∈ after) : t ∈ c.tasks := by
    rw [hpool]
    rcases ht with ht | ht <;> simp [ht]
  have hrely {t : Task L Op Res ε} (ht : t ∈ before ∨ t ∈ after) :
      K.Rely t.label c.shared (S.exec l op ch c.shared).1 :=
    hK.other l t.label op ch c.running _ (hapart.others ht).1 (hapart.others ht).2
      (List.mem_map_of_mem (hmem ht)) hk hd
  obtain ⟨s₀,hr₀,hhonest⟩ := h.honest ⟨l,.call op k⟩ (by simp [hpool])
  obtain ⟨hincur,hrest⟩ := hhonest c.shared c.running hr₀ hk ch hd
  refine ⟨hapart.step _,fun t ht => ?_,fun δ hδ => ?_⟩
  · simp only [List.mem_append] at ht
    have hstays (ht : t ∈ before ∨ t ∈ after) : ∃ s, K.Rely t.label s (S.exec l op ch c.shared).1 ∧
        S.Honest D K Debt Debtor t.label t.code s := by
      obtain ⟨s₁,hr₁,hp⟩ := h.honest t (hmem ht)
      exact ⟨s₁,hK.rely_trans _ _ _ _ hr₁ (hrely ht),hp⟩
    rcases ht with (ht | ht) | ht
    · exact hstays (.inl ht)
    · rw [mem_residue ht]
      exact ⟨_,hK.rely_refl _ _,hrest⟩
    · exact hstays (.inr ht)
  · -- a debt is new, or one that another task or this one owed before
    have hleft : (∃ t ∈ residue l (k (S.exec l op ch c.shared).2),
        S.Owes D K Debt Debtor δ t (S.exec l op ch c.shared).1) →
        ∃ t ∈ before ++ residue l (k (S.exec l op ch c.shared).2) ++ after,
          S.Owes D K Debt Debtor δ t (S.exec l op ch c.shared).1 := by
      rintro ⟨t,ht,ho⟩
      exact ⟨t,by simp [ht],ho⟩
    have hstays {t : Task L Op Res ε} (ht : t ∈ before ∨ t ∈ after)
        (ho : S.Owes D K Debt Debtor δ t c.shared) :
        ∃ t ∈ before ++ residue l (k (S.exec l op ch c.shared).2) ++ after,
          S.Owes D K Debt Debtor δ t (S.exec l op ch c.shared).1 := by
      refine ⟨t,?_,ho.rely hK (hrely ht)⟩
      rcases ht with ht | ht <;> simp [ht]
    rcases hincur δ hδ with hold | ⟨hl,hnew⟩
    · obtain ⟨t,ht,ho⟩ := h.owed δ hold
      rw [hpool] at ht
      rcases List.mem_append.mp ht with ht | ht
      · exact hstays (.inl ht) ho
      · rcases List.mem_cons.mp ht with rfl | ht
        · obtain ⟨hl,s₁,hr₁,hsat⟩ := ho
          exact hleft (residue_owes hK hl hδ ((hsat c.shared c.running hr₁ hk).2 ch hd))
        · exact hstays (.inr ht) ho
    · exact hleft (residue_owes hK hl hδ hnew)

theorem Pays.solvent_env (hK : Pays S D K Debt Debtor init) {e : Env}
    (h : Solvent S D K Debt Debtor c) (hm : D.onEnv e c.running c.shared)
    (hs : S.step c (.env e) = some c') : Solvent S D K Debt Debtor c' := by
  obtain ⟨s,he,rfl⟩ := Option.map_eq_some_iff.mp hs
  obtain ⟨hdebt,hlive,hkill⟩ := hK.env e _ c.shared s hm he
  cases hk : S.kills e with
  | true =>
    refine ⟨.nil,by simp,fun δ hδ => ?_⟩
    obtain ⟨t,ht,hl,_⟩ := h.owed δ (hdebt δ hδ)
    exact absurd hl (hkill hk δ (hdebt δ hδ) t.label (List.mem_map_of_mem ht))
  | false =>
    simp only [Bool.false_eq_true,if_false]
    have hrely {t : Task L Op Res ε} (ht : t ∈ c.tasks) : K.Rely t.label c.shared s :=
      hlive hk _ (List.mem_map_of_mem ht)
    refine ⟨h.apart,fun t ht => ?_,fun δ hδ => ?_⟩
    · obtain ⟨s₀,hr,hp⟩ := h.honest t ht
      exact ⟨s₀,hK.rely_trans _ _ _ _ hr (hrely ht),hp⟩
    · obtain ⟨t,ht,ho⟩ := h.owed δ (hdebt δ hδ)
      exact ⟨t,ht,ho.rely hK (hrely ht)⟩

theorem Pays.solvent (hK : Pays S D K Debt Debtor init)
    (hknown : ∀ c, S.Reach D init c → ∀ l op, c.AboutTo l op → K.Known l op c.running c.shared)
    (h : S.Reach D init c) : Solvent S D K Debt Debtor c := by
  induction h with
  | init hs => exact ⟨.nil,by simp,fun δ hδ => absurd hδ (hK.init _ hs δ)⟩
  | @step c c' e hr hm hs ih =>
    cases e with
    | start l => exact hK.solvent_start ih hs
    | step i ch => exact hK.solvent_op ih (hknown c hr) hm hs
    | env e => exact hK.solvent_env ih hm hs

theorem Pays.settled (hK : Pays S D K Debt Debtor init)
    (hknown : ∀ c, S.Reach D init c → ∀ l op, c.AboutTo l op → K.Known l op c.running c.shared)
    (h : S.Reach D init c) {δ : Δ} (hrun : ∀ l ∈ c.running, ¬ Debtor δ l) : ¬ Debt δ c.shared := by
  intro hδ
  obtain ⟨t,ht,hl,_⟩ := (hK.solvent hknown h).owed δ hδ
  exact hrun t.label (List.mem_map_of_mem ht) hl

end

end System

end Interleaving
