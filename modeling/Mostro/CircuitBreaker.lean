import Mathlib.Data.List.Induction
import Mostro.PriceTicks

set_option autoImplicit false

/-!
The circuit breaker of a price provider.  The source keeps a saturating counter and the end of the
cooldown; here the polls of a provider are listed, and the breaker is compared with the trailing run
of failures among the polls that were made.
-/

namespace Mostro.Prices

structure Poll where
  startedAt : Seconds
  failedAt : Seconds
  ok : Bool
  deriving DecidableEq, Repr

section

variable (threshold base cap : Nat)

/-- The part of a tick of `update_all` that concerns the breaker of one provider. -/
def ProviderHealth.poll (h : ProviderHealth) (p : Poll) : ProviderHealth :=
  if h.isAvailable p.startedAt then
    if p.ok then {} else h.recordFailure p.failedAt threshold base cap
  else h

def health (polls : List Poll) : ProviderHealth :=
  polls.foldl (·.poll threshold base cap) {}

/-- The polls that were made, newest first: the provider was not skipped. -/
def made (polls : List Poll) : List Poll :=
  (polls.foldl (fun (s : ProviderHealth × List Poll) p =>
    (s.1.poll threshold base cap p,if s.1.isAvailable p.startedAt then p :: s.2 else s.2))
    ({},[])).2

def streak (polls : List Poll) : List Poll :=
  (made threshold base cap polls).takeWhile (!·.ok)

@[simp] theorem health_append (polls : List Poll) (p : Poll) :
    health threshold base cap (polls ++ [p]) =
      (health threshold base cap polls).poll threshold base cap p := by
  simp [health]

theorem made_fold (polls : List Poll) :
    polls.foldl (fun (s : ProviderHealth × List Poll) p =>
      (s.1.poll threshold base cap p,if s.1.isAvailable p.startedAt then p :: s.2 else s.2))
      ({},[]) = (health threshold base cap polls,made threshold base cap polls) := by
  refine Prod.ext ?_ rfl
  induction polls using List.reverseRecOn with
  | nil => rfl
  | append_singleton polls p ih => simp [ih]

theorem made_append (polls : List Poll) (p : Poll) :
    made threshold base cap (polls ++ [p]) =
      if (health threshold base cap polls).isAvailable p.startedAt then
        p :: made threshold base cap polls
      else made threshold base cap polls := by
  rw [made,List.foldl_append,made_fold]
  rfl

end

theorem cooldownSecs_eq {base cap overBy n : Nat} (hcap : cap ≤ i64Max)
    (hover : overBy = n ∨ 63 ≤ overBy ∧ 63 ≤ n) :
    cooldownSecs base cap overBy = min (base * 2 ^ n) cap := by
  have hclamp (x : Nat) : min (min (min x u64Max) cap) i64Max = min x cap := by
    simp only [u64Max,i64Max] at *
    omega
  simp only [cooldownSecs,hclamp]
  by_cases hbase : base = 0
  · simp [hbase]
  -- from the shift by 63 on, the product is beyond every cap
  have hbeyond (m : Nat) (hm : 63 ≤ m) : cap ≤ base * 2 ^ m :=
    calc cap ≤ 2 ^ 63 := hcap.trans (by decide)
      _ ≤ 2 ^ m := Nat.pow_le_pow_right (by decide) hm
      _ ≤ base * 2 ^ m := Nat.le_mul_of_pos_left _ (Nat.pos_of_ne_zero hbase)
  rcases le_total n 63 with hn | hn
  · have hsame : min overBy 63 = n := by omega
    rw [hsame]
  · have hmost : min overBy 63 = 63 := by omega
    rw [hmost,min_eq_right (hbeyond 63 le_rfl),min_eq_right (hbeyond n hn)]

theorem saturatingAdd_of_fits {a : Int} {b : Nat} (ha : -2 ^ 63 ≤ a) (hb : a + b ≤ i64Max) :
    saturatingAdd a b = a + b := by
  unfold saturatingAdd
  omega

section

variable {threshold base cap : Nat} {polls : List Poll}

def openUntilAfter (threshold base cap : Nat) : List Poll → Option Seconds
  | [] => none
  | last :: rest =>
    if rest.length + 1 < threshold then none
    else some (last.failedAt + (min (base * 2 ^ (rest.length + 1 - threshold)) cap : Nat))

structure Follows (threshold base cap : Nat) (failures : List Poll)
    (h : ProviderHealth) : Prop where
  count : h.consecutiveFailures = min failures.length u32Max
  cooldown : h.openUntil = openUntilAfter threshold base cap failures

/-- The times a cooldown is computed from stay within `i64`. -/
def Poll.Fits (cap : Nat) (p : Poll) : Prop := -2 ^ 63 ≤ p.failedAt ∧ p.failedAt + cap ≤ i64Max

theorem Follows.recordFailure {failures : List Poll} {h : ProviderHealth} {p : Poll}
    (hf : Follows threshold base cap failures h) (hth : 1 ≤ threshold) (hmax : threshold ≤ u32Max)
    (hcap : cap ≤ i64Max) (hfits : p.Fits cap)
    (hcount : threshold + 63 ≤ u32Max ∨ failures.length < u32Max) :
    Follows threshold base cap (p :: failures) (h.recordFailure p.failedAt threshold base cap) := by
  have hnext : min (h.consecutiveFailures + 1) u32Max = min (failures.length + 1) u32Max := by
    rw [hf.count]
    omega
  unfold ProviderHealth.recordFailure
  rw [hnext,max_eq_left hth]
  dsimp only
  split
  next hlt =>
    have hfew : failures.length + 1 < threshold := by omega
    refine ⟨rfl,?_⟩
    -- the breaker has not opened since the last success
    have hclosed : openUntilAfter threshold base cap failures = none := by
      cases failures with
      | nil => rfl
      | cons _ rest =>
        rw [List.length_cons] at hfew
        exact if_pos (Nat.lt_of_succ_lt hfew)
    rw [hf.cooldown,hclosed]
    exact (if_pos hfew).symm
  next hge =>
    have hmany : ¬failures.length + 1 < threshold := by omega
    refine ⟨rfl,?_⟩
    have hsecs : cooldownSecs base cap (min (failures.length + 1) u32Max - threshold) =
        min (base * 2 ^ (failures.length + 1 - threshold)) cap := cooldownSecs_eq hcap (by omega)
    rw [hsecs,saturatingAdd_of_fits hfits.1]
    · simp [openUntilAfter,hmany]
    · refine le_trans ?_ hfits.2
      have hle : min (base * 2 ^ (failures.length + 1 - threshold)) cap ≤ cap := min_le_right _ _
      omega

theorem streak_append (p : Poll) :
    streak threshold base cap (polls ++ [p]) =
      if (health threshold base cap polls).isAvailable p.startedAt then
        if p.ok then [] else p :: streak threshold base cap polls
      else streak threshold base cap polls := by
  unfold streak
  rw [made_append]
  split
  · cases hok : p.ok <;> simp [hok]
  · rfl

theorem health_follows (hth : 1 ≤ threshold) (hmax : threshold ≤ u32Max) (hcap : cap ≤ i64Max)
    (hfits : ∀ p ∈ polls, p.Fits cap)
    (hcount : threshold + 63 ≤ u32Max ∨ (streak threshold base cap polls).length ≤ u32Max) :
    Follows threshold base cap (streak threshold base cap polls)
    (health threshold base cap polls) := by
  induction polls using List.reverseRecOn with
  | nil => exact ⟨rfl,rfl⟩
  | append_singleton polls p ih =>
    have ih := ih fun q hq => hfits q (List.mem_append_left _ hq)
    rw [streak_append] at hcount ⊢
    rw [health_append]
    unfold ProviderHealth.poll
    split at hcount
    next hopen =>
      rw [if_pos hopen,if_pos hopen]
      split at hcount
      next hok =>
        rw [if_pos hok,if_pos hok]
        exact ⟨rfl,rfl⟩
      next hfail =>
        rw [if_neg hfail,if_neg hfail]
        rw [List.length_cons] at hcount
        refine (ih (hcount.imp_right (by omega))).recordFailure hth hmax hcap ?_ hcount
        exact hfits p (List.mem_append_right _ List.mem_cons_self)
    next hskip =>
      rw [if_neg hskip,if_neg hskip]
      exact ih hcount

theorem Follows.isAvailable {failures : List Poll} {h : ProviderHealth}
    (hf : Follows threshold base cap failures h) (t : Seconds) :
    h.isAvailable t = ((openUntilAfter threshold base cap failures).all (· ≤ t)) := by
  rw [← hf.cooldown]
  unfold ProviderHealth.isAvailable
  cases h.openUntil <;> rfl

theorem openUntilAfter_le_cap {failures : List Poll} {last : Poll}
    (hlast : failures.head? = some last) {t until_ : Seconds} (ht : last.failedAt + cap ≤ t)
    (huntil : openUntilAfter threshold base cap failures = some until_) : until_ ≤ t := by
  cases failures with
  | nil => cases hlast
  | cons p rest =>
    cases hlast
    simp only [openUntilAfter] at huntil
    split at huntil
    · cases huntil
    · cases huntil
      have hle : min (base * 2 ^ (rest.length + 1 - threshold)) cap ≤ cap := min_le_right _ _
      exact le_trans (Int.add_le_add_left (Int.ofNat_le.mpr hle) _) ht

/-- After `k` consecutive failures, `k` at least the threshold, the provider is skipped exactly
until the backed-off cooldown after the last one has passed; it is never skipped longer than the cap
after a failure, and a success leaves nothing behind. -/
theorem skipped_for_backoff (hth : 1 ≤ threshold) (hmax : threshold ≤ u32Max) (hcap : cap ≤ i64Max)
    (hfits : ∀ p ∈ polls, p.Fits cap)
    (hcount : threshold + 63 ≤ u32Max ∨ (streak threshold base cap polls).length ≤ u32Max) :
    (∀ last, (streak threshold base cap polls).head? = some last → ∀ k,
      (streak threshold base cap polls).length = k → threshold ≤ k → ∀ t,
        (health threshold base cap polls).isAvailable t = false ↔
          t < last.failedAt + (min (base * 2 ^ (k - threshold)) cap : Nat)) ∧
    ((streak threshold base cap polls).length < threshold →
      ∀ t, (health threshold base cap polls).isAvailable t) ∧
    (∀ last, (streak threshold base cap polls).head? = some last →
      ∀ t, last.failedAt + cap ≤ t → (health threshold base cap polls).isAvailable t) ∧
    ((made threshold base cap polls).head?.any (·.ok) → health threshold base cap polls = {}) := by
  have hf := health_follows hth hmax hcap hfits hcount
  refine ⟨?_,?_,?_,?_⟩
  · rintro last hlast _ rfl hk t
    rw [hf.isAvailable]
    cases hs : streak threshold base cap polls with
    | nil => simp [hs] at hlast
    | cons p rest =>
      rw [hs] at hlast hk
      cases hlast
      have hmany : ¬rest.length + 1 < threshold := Nat.not_lt.mpr hk
      simp [openUntilAfter,hmany]
  · intro hfew t
    rw [hf.isAvailable]
    cases hs : streak threshold base cap polls with
    | nil => rfl
    | cons p rest =>
      rw [hs] at hfew
      simp [openUntilAfter,show rest.length + 1 < threshold from hfew]
  · intro last hlast t ht
    rw [hf.isAvailable,Option.all_eq_true]
    exact fun end_ hend => decide_eq_true (openUntilAfter_le_cap hlast ht hend)
  · intro hok
    have hnone : streak threshold base cap polls = [] := by
      unfold streak
      cases hm : made threshold base cap polls with
      | nil => rfl
      | cons p rest =>
        have hp : p.ok = true := by simpa [hm] using hok
        simp [hp]
    rw [hnone] at hf
    cases hh : health threshold base cap polls with
    | mk failures openUntil =>
      obtain ⟨rfl,rfl⟩ : failures = 0 ∧ openUntil = none :=
        ⟨by simpa [hh] using hf.count,by simpa [hh,openUntilAfter] using hf.cooldown⟩
      rfl

end

def fourFailures : List Poll :=
  [⟨0,5,false⟩,⟨300,305,false⟩,⟨600,605,false⟩,⟨660,665,true⟩,⟨900,905,false⟩]

theorem skipped_after_four_failures :
    (streak 3 120 1800 fourFailures).length = 4 ∧
      ∀ t, (health 3 120 1800 fourFailures).isAvailable t = false ↔ t < 905 + 240 := by
  have hfits : ∀ p ∈ fourFailures, p.Fits 1800 := by
    simp [fourFailures,Poll.Fits,i64Max]
  have hcount : 3 + 63 ≤ u32Max ∨ (streak 3 120 1800 fourFailures).length ≤ u32Max :=
    .inl (by decide)
  have h := (skipped_for_backoff (by decide) (by decide) (by decide) hfits hcount).1
  exact ⟨rfl,h ⟨900,905,false⟩ rfl 4 rfl (by decide)⟩

theorem health_early_failures {threshold base cap n : Nat} (hn : n < threshold)
    (hmax : threshold ≤ u32Max) :
    health threshold base cap (List.replicate n ⟨0,0,false⟩) = ⟨n,none⟩ ∧
      streak threshold base cap (List.replicate n ⟨0,0,false⟩) = List.replicate n ⟨0,0,false⟩ := by
  induction n with
  | zero => exact ⟨rfl,rfl⟩
  | succ n ih =>
    obtain ⟨hh,hs⟩ := ih (Nat.lt_of_succ_lt hn)
    have hcount : min (n + 1) u32Max = n + 1 := by omega
    rw [List.replicate_succ',health_append,streak_append,hh,hs]
    refine ⟨?_,by simp [ProviderHealth.isAvailable,← List.replicate_succ',List.replicate_succ]⟩
    have hfew : n + 1 < max threshold 1 := lt_max_of_lt_left hn
    simp [ProviderHealth.poll,ProviderHealth.isAvailable,ProviderHealth.recordFailure,hcount,hfew]

/-- As many failures as a `u32` counts, and one more a second later. -/
def uncountedFailure : List Poll :=
  List.replicate (u32Max - 1) ⟨0,0,false⟩ ++ [⟨0,0,false⟩] ++ [⟨1,1,false⟩]

/-- With the greatest threshold the counter stops at the first cooldown, which is not doubled. -/
theorem cooldown_not_doubled :
    (streak u32Max 1 1800 uncountedFailure).length = u32Max + 1 ∧
      (streak u32Max 1 1800 uncountedFailure).head? = some ⟨1,1,false⟩ ∧
      (health u32Max 1 1800 uncountedFailure).isAvailable 2 ∧
      (2 : Seconds) < 1 + (min (1 * 2 ^ (u32Max + 1 - u32Max)) 1800 : Nat) := by
  obtain ⟨hh,hs⟩ : health u32Max 1 1800 (List.replicate (u32Max - 1) ⟨0,0,false⟩) =
        ⟨u32Max - 1,none⟩ ∧
      streak u32Max 1 1800 (List.replicate (u32Max - 1) ⟨0,0,false⟩) =
        List.replicate (u32Max - 1) ⟨0,0,false⟩ := health_early_failures (by decide) le_rfl
  have hopened : health u32Max 1 1800 (List.replicate (u32Max - 1) ⟨0,0,false⟩ ++ [⟨0,0,false⟩]) =
      ⟨u32Max,some 1⟩ := by
    rw [health_append,hh]
    decide +kernel
  have hstreak : streak u32Max 1 1800 uncountedFailure =
      ⟨1,1,false⟩ :: ⟨0,0,false⟩ :: List.replicate (u32Max - 1) ⟨0,0,false⟩ := by
    rw [uncountedFailure,streak_append,hopened,streak_append,hh,hs]
    simp [ProviderHealth.isAvailable]
  refine ⟨?_,by rw [hstreak]; rfl,?_,by decide⟩
  · rw [hstreak,List.length_cons,List.length_cons,List.length_replicate]
    decide
  · rw [uncountedFailure,health_append,hopened]
    decide +kernel

def pollOf (settings : PriceSettings) (id : ProviderId) (input : TickInput) : Poll :=
  ⟨input.startedAt,input.failedAt,(fetch settings input id).isSome⟩

theorem updateAll_health {settings : PriceSettings} {id : ProviderId}
    (hid : settings.providers.any (·.id == id)) (m : PriceManager) (input : TickInput) :
    (updateAll settings m input).health id = (m.health id).poll settings.providerFailureThreshold
      settings.providerFailureCooldownSeconds providerCooldownCapSeconds
      (pollOf settings id input) := by
  have hpolled : (pollable settings m input).any (·.id == id) =
      (m.health id).isAvailable input.startedAt := by
    obtain ⟨p,hp,heq⟩ := List.any_eq_true.mp hid
    rw [beq_iff_eq] at heq
    rw [Bool.eq_iff_iff,List.any_eq_true]
    constructor
    · rintro ⟨q,hq,hqid⟩
      exact beq_iff_eq.mp hqid ▸ (List.mem_filter.mp hq).2
    · intro hopen
      exact ⟨p,List.mem_filter.mpr ⟨hp,heq ▸ hopen⟩,beq_iff_eq.mpr heq⟩
  simp only [updateAll,recordOutcome,hpolled,ProviderHealth.poll,pollOf]
  rfl

theorem afterTicks_health {settings : PriceSettings} {id : ProviderId}
    (hid : settings.providers.any (·.id == id)) (ticks : List TickInput) :
    (afterTicks settings ticks).health id = health settings.providerFailureThreshold
      settings.providerFailureCooldownSeconds providerCooldownCapSeconds
      (ticks.map (pollOf settings id)) := by
  induction ticks using List.reverseRecOn with
  | nil => rfl
  | append_singleton ticks input ih =>
    rw [List.map_append,List.map_singleton,health_append,← ih,← updateAll_health hid]
    simp [afterTicks]

end Mostro.Prices
