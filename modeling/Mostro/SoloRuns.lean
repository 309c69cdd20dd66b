import Mostro.RelyGuarantee

set_option autoImplicit false

/-!
Runs of one program with nothing in between.  They are runs of the system, and the rules of the
rely-guarantee logic reason about them: a lone program relies on a state that does not change.
-/

namespace Interleaving

variable {σ L Op : Type} {Res : Op → Type} {ε Ch Env α : Type}

/-- No other task runs; each operation is performed where `P` holds. -/
def Contract.solo (P : L → Op → σ → Prop) : Contract σ L Op where
  Binds _ := True
  Rely _ s s' := s' = s
  Known l _ ls _ := ls = [l]
  Pre := P
  Idle _ _ := True

namespace System

variable (S : System σ L Op Res ε Ch Env) (D : Demand σ L Op Ch Env)

/-- Run alone by the task `l` from `s`, the program ends with `r` in `s'`. -/
inductive Alone (l : L) : Prog Op Res ε α → σ → Except ε α → σ → Prop
  | ret (a : α) (s : σ) : Alone l (.ret a) s (.ok a) s
  | fail (e : ε) (s : σ) : Alone l (.fail e) s (.error e) s
  | call {op : Op} {k : Res op → Prog Op Res ε α} {ch : Ch} {s s' : σ} {r : Except ε α} :
      D.onOp l op ch [l] s → Alone l (k (S.exec l op ch s).2) (S.exec l op ch s).1 r s' →
      Alone l (.call op k) s r s'

/-- Run alone from `s`, the program comes to the point where `q` is left and the state is `s'`. -/
inductive Visits (l : L) (p : Prog Op Res ε α) (s : σ) : Prog Op Res ε α → σ → Prop
  | start : Visits l p s p s
  | step {op : Op} {k : Res op → Prog Op Res ε α} {ch : Ch} {s' : σ} :
      Visits l p s (.call op k) s' → D.onOp l op ch [l] s' →
      Visits l p s (k (S.exec l op ch s').2) (S.exec l op ch s').1

def playAlone [D.Checkable] (l : L) : List Ch → Prog Op Res ε α → σ → Option (Except ε α × σ)
  | _, .ret a, s => some (.ok a,s)
  | _, .fail e, s => some (.error e,s)
  | [], .call _ _, _ => none
  | ch :: rest, .call op k, s =>
    if D.onOp l op ch [l] s then
      playAlone l rest (k (S.exec l op ch s).2) (S.exec l op ch s).1
    else none

def playTo [D.Checkable] (l : L) :
    List Ch → Prog Op Res ε α → σ → Option (Prog Op Res ε α × σ)
  | [], p, s => some (p,s)
  | _ :: _, .ret _, _ => none
  | _ :: _, .fail _, _ => none
  | ch :: rest, .call op k, s =>
    if D.onOp l op ch [l] s then
      playTo l rest (k (S.exec l op ch s).2) (S.exec l op ch s).1
    else none

variable {S D} {l : L}

theorem Visits.head {op : Op} {k : Res op → Prog Op Res ε α} {q : Prog Op Res ε α} {ch : Ch}
    {s s' : σ} (hd : D.onOp l op ch [l] s)
    (h : S.Visits D l (k (S.exec l op ch s).2) (S.exec l op ch s).1 q s') :
    S.Visits D l (.call op k) s q s' := by
  induction h with
  | start => exact .step .start hd
  | step _ hd' ih => exact .step ih hd'

theorem visits_of_playTo [D.Checkable] {chs : List Ch} {p q : Prog Op Res ε α} {s s' : σ}
    (h : S.playTo D l chs p s = some (q,s')) : S.Visits D l p s q s' := by
  induction chs generalizing p s with
  | nil =>
    cases h
    exact .start
  | cons ch rest ih =>
    cases p with
    | ret a => cases h
    | fail e => cases h
    | call op k =>
      simp only [playTo] at h
      split at h
      next hd => exact .head hd (ih h)
      · cases h

theorem alone_of_play [D.Checkable] {chs : List Ch} {p : Prog Op Res ε α} {s s' : σ}
    {r : Except ε α} (h : S.playAlone D l chs p s = some (r,s')) : S.Alone D l p s r s' := by
  induction p generalizing chs s with
  | ret a =>
    cases chs <;> cases h <;> exact .ret a _
  | fail e =>
    cases chs <;> cases h <;> exact .fail e _
  | call op k ih =>
    cases chs with
    | nil => cases h
    | cons ch rest =>
      simp only [playAlone] at h
      split at h
      next hd => exact .call hd (ih _ h)
      · cases h

theorem Sat.alone {P : L → Op → σ → Prop} {p : Prog Op Res ε α} {Q : Except ε α → σ → Prop}
    {s s' : σ} {r : Except ε α} (h : S.Sat D (.solo P) l p Q s) (hr : S.Alone D l p s r s') :
    Q r s' := by
  induction hr with
  | ret a s => exact h
  | fail e s => exact h
  | call hd _ ih => exact ih ((h _ _ rfl rfl).2 _ hd)

theorem Sat.visits {P : L → Op → σ → Prop} {p q : Prog Op Res ε α} {Q : Except ε α → σ → Prop}
    {s s' : σ} (h : S.Sat D (.solo P) l p Q s) (hv : S.Visits D l p s q s') :
    S.Sat D (.solo P) l q Q s' := by
  induction hv with
  | start => exact h
  | step _ hd ih => exact (ih _ _ rfl rfl).2 _ hd

theorem Sat.and_solo {P : L → Op → σ → Prop} {p : Prog Op Res ε α} {Q Q' : Except ε α → σ → Prop}
    {s : σ} (h : S.Sat D (.solo P) l p Q s) (h' : S.Sat D (.solo fun _ _ _ => True) l p Q' s) :
    S.Sat D (.solo P) l p (fun r s => Q r s ∧ Q' r s) s := by
  induction p generalizing s with
  | ret a => exact ⟨h,h'⟩
  | fail e => exact ⟨h,h'⟩
  | call op k ih =>
    intro s₁ ls hr hk
    obtain ⟨hpre,hrest⟩ := h s₁ ls hr hk
    exact ⟨hpre,fun ch hd => ih _ (hrest ch hd) ((h' s₁ ls hr hk).2 ch hd)⟩

theorem exists_alone (hD : ∀ op s, ∃ ch, D.onOp l op ch [l] s) (p : Prog Op Res ε α) (s : σ) :
    ∃ r s', S.Alone D l p s r s' := by
  induction p generalizing s with
  | ret a => exact ⟨_,_,.ret a s⟩
  | fail e => exact ⟨_,_,.fail e s⟩
  | call op k ih =>
    obtain ⟨ch,hd⟩ := hD op s
    obtain ⟨r,s',hr⟩ := ih (S.exec l op ch s).2 (S.exec l op ch s).1
    exact ⟨r,s',.call hd hr⟩

theorem Alone.run {p : Prog Op Res ε Unit} {s s' : σ} {r : Except ε Unit}
    (h : S.Alone D l p s r s') : S.Run D ⟨s,residue l p⟩ ⟨s',[]⟩ := by
  induction h with
  | ret a s => exact .refl
  | fail e s => exact .refl
  | @call op k ch s s' r hd _ ih =>
    refine Run.head (e := .step 0 ch)
      (by simpa [Meets,residue,Prog.finished,Config.running] using hd)
      ?_ ih
    simp [step,residue,Prog.finished]

end System

end Interleaving
