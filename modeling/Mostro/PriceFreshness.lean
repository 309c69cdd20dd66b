import Mathlib.Data.List.Induction
import Mostro.PriceTicks

set_option autoImplicit false

/-!
How old the observations behind a served price may be.  The store dates a price by the tick that
computed it, the ranking of relayed events dates an event by its author: the two ages add up.
-/

namespace Mostro.Prices

variable {settings : PriceSettings} {ticks : List TickInput}

def observationTime (settings : PriceSettings) (input : TickInput) : ProviderId → Seconds
  | .nostr => ((relayedEvent settings input).map (·.createdAt)).getD input.storedAt
  | _ => input.storedAt

/-- The price comes from one tick of the run, and every quote it was computed from was observed at
most the staleness window before the read. -/
def ComputedFresh (settings : PriceSettings) (ticks : List TickInput) (currency : Code)
    (now : Seconds) (price : ℚ) : Prop :=
  ∃ before input after agg, ticks = before ++ input :: after ∧
    aggregates settings (afterTicks settings before) input currency.toUpper = some agg ∧
    agg.value = price ∧
    ∀ id ∈ feeders (tickResults settings (afterTicks settings before) input) currency.toUpper,
      now - observationTime settings input id ≤ settings.maxPriceStalenessSeconds

theorem afterTicks_append (ticks : List TickInput) (input : TickInput) :
    afterTicks settings (ticks ++ [input]) =
      updateAll settings (afterTicks settings ticks) input := by
  simp [afterTicks]

theorem store_origin {currency : Code} {entry : AggregatedPrice}
    (h : (afterTicks settings ticks).store currency = some entry) :
    ∃ before input after agg, ticks = before ++ input :: after ∧
      aggregates settings (afterTicks settings before) input currency = some agg ∧
      entry = ⟨agg.value,input.storedAt,agg.sources⟩ := by
  induction ticks using List.reverseRecOn with
  | nil => simp [afterTicks] at h
  | append_singleton before input ih =>
    rw [afterTicks_append,updateAll] at h
    cases hagg : aggregates settings (afterTicks settings before) input currency with
    | some agg =>
      simp only [hagg,Option.some.injEq] at h
      exact ⟨before,input,[],agg,rfl,hagg,h.symm⟩
    | none =>
      simp only [hagg] at h
      obtain ⟨before',input',after,agg,rfl,hold,hentry⟩ := ih h
      exact ⟨before',input',after ++ [input],agg,by simp,hold,hentry⟩

def usableEvents (settings : PriceSettings) (input : TickInput) : List RateEvent :=
  (input.events.getD []).filter fun e =>
    e.isCandidate settings.trustedNodes input.rankedAt (max settings.maxPriceStalenessSeconds 1) &&
      !e.quotes.isEmpty

/-- Where a relayed rate goes into the currency's price, the newest usable event is as new as the
tick. -/
def relaysCurrent (settings : PriceSettings) (state : PriceManager) (currency : Code)
    (input : TickInput) : Bool :=
  !(feeders (tickResults settings state input) currency).contains .nostr ||
    (usableEvents settings input).isEmpty ||
    (usableEvents settings input).any (input.storedAt ≤ ·.createdAt)

theorem pickFirstUsable_newest {events : List RateEvent} {e : RateEvent}
    (h : pickFirstUsable (events.insertionSort (·.createdAt ≥ ·.createdAt)) = some e) :
    !e.quotes.isEmpty ∧ e ∈ events ∧
      ∀ e' ∈ events, !e'.quotes.isEmpty → e'.createdAt ≤ e.createdAt := by
  have hsorted : (events.insertionSort (·.createdAt ≥ ·.createdAt)).Pairwise
      (·.createdAt ≥ ·.createdAt) :=
    List.pairwise_insertionSort _ _
  obtain ⟨husable,older,newer,heq,hskip⟩ := List.find?_eq_some_iff_append.1 h
  have hmem : ∀ e', e' ∈ events ↔ e' ∈ older ++ e :: newer := fun e' => by
    rw [← heq,List.mem_insertionSort]
  refine ⟨husable,(hmem e).2 (by simp),fun e' he' husable' => ?_⟩
  rw [heq] at hsorted
  rcases List.mem_append.1 ((hmem e').1 he') with hold | hnew
  · exact absurd husable' (by simpa using hskip e' hold)
  · rcases List.mem_cons.1 hnew with rfl | hnew
    · exact le_rfl
    · exact (List.pairwise_cons.1 (List.pairwise_append.1 hsorted).2.1).1 e' hnew

theorem storedAt_le_observationTime {state : PriceManager} {currency : Code} {input : TickInput}
    (h : relaysCurrent settings state currency input) {id : ProviderId}
    (hid : id ∈ feeders (tickResults settings state input) currency) :
    input.storedAt ≤ observationTime settings input id := by
  cases id with
  | nostr =>
    simp only [observationTime]
    cases hrelayed : relayedEvent settings input with
    | none => simp
    | some e =>
      obtain ⟨events,hevents,hpick⟩ := Option.bind_eq_some_iff.1 hrelayed
      obtain ⟨husable,hmem,hnewest⟩ := pickFirstUsable_newest hpick
      obtain ⟨hmem,hcandidate⟩ := List.mem_filter.1 hmem
      have hne : (usableEvents settings input).isEmpty = false := by
        rw [List.isEmpty_eq_false_iff_exists_mem]
        exact ⟨e,List.mem_filter.2 ⟨by simpa [hevents] using hmem,by simp_all⟩⟩
      simp only [relaysCurrent,List.contains_iff_mem.2 hid,hne,Bool.not_true,Bool.false_or,
        List.any_eq_true,decide_eq_true_eq] at h
      obtain ⟨e',he',hle⟩ := h
      have he' := List.mem_filter.1 he'
      simp only [hevents,Option.getD_some,Bool.and_eq_true] at he'
      exact hle.trans (hnewest e' (List.mem_filter.2 ⟨he'.1,he'.2.1⟩) he'.2.2)
  | _ => exact le_rfl

/-- A served price is computed from fresh observations when no older rate was relayed into a price
of its currency. -/
theorem served_price_computed_fresh (settings : PriceSettings) (ticks : List TickInput)
    (currency : Code)
    (hrelays : ∀ before input after, ticks = before ++ input :: after →
      relaysCurrent settings (afterTicks settings before) currency.toUpper input) (now : Seconds)
    (price : ℚ) (hserved : getPrice settings (afterTicks settings ticks) currency now = .ok price) :
    ComputedFresh settings ticks currency now price := by
  rw [getPrice] at hserved
  split at hserved
  · cases hserved
  next entry hentry =>
    split at hserved
    next hage =>
      obtain ⟨before,input,after,agg,rfl,hagg,rfl⟩ := store_origin hentry
      refine ⟨before,input,after,agg,rfl,hagg,by simpa using hserved,fun id hid => ?_⟩
      have hobserved := storedAt_le_observationTime (hrelays before input after rfl) hid
      exact (Int.sub_le_sub_left hobserved now).trans hage
    · cases hserved

def relayedPeso (createdAt storedAt : Seconds) : TickInput where
  startedAt := storedAt
  rankedAt := storedAt
  failedAt := storedAt
  storedAt := storedAt
  events := some [⟨7,exchangeRatesEventKind,some "mostro-rates",createdAt,none,
    some [("CUP",40000000)]⟩]

def relayedOnly : PriceSettings where
  providers := [{ id := .nostr }]
  trustedNodes := [7]

theorem eq_of_singleton {input input' : TickInput} {before after : List TickInput}
    (h : [input] = before ++ input' :: after) : before = [] ∧ input' = input ∧ after = [] := by
  cases before <;> simp_all

theorem served_price_computed_fresh_relayed :
    ComputedFresh relayedOnly [relayedPeso 10000 10000] "CUP" 11800 40000000 := by
  refine served_price_computed_fresh relayedOnly [relayedPeso 10000 10000] "CUP"
    (fun before input after h => ?_) 11800 40000000 (by decide +kernel)
  obtain ⟨rfl,rfl,rfl⟩ := eq_of_singleton h
  decide +kernel

/-- A rate relayed half an hour after it was published is served for another half hour. -/
theorem served_price_of_hour_old_rate :
    getPrice relayedOnly (afterTicks relayedOnly [relayedPeso 8200 10000]) "CUP" 11800 =
        .ok 40000000 ∧
      ¬ ComputedFresh relayedOnly [relayedPeso 8200 10000] "CUP" 11800 40000000 := by
  refine ⟨by decide +kernel,?_⟩
  rintro ⟨before,input,after,agg,hticks,-,-,hfresh⟩
  obtain ⟨rfl,rfl,rfl⟩ := eq_of_singleton hticks
  exact absurd (hfresh .nostr (by decide +kernel)) (by decide +kernel)

end Mostro.Prices
