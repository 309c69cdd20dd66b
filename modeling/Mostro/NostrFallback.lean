import Mostro.RepublishedRates

set_option autoImplicit false

/-!
Relayed rates as a fallback, for any providers.  Which currencies a tick prices depends on the signs
of the quotes only; a currency keeps its price when the relayed rates are restricted, unless a base
loses its relayed quote because the other providers cover it by cross quotes alone.
-/

namespace Mostro.Prices

variable {results : ProviderResults} {outlierPct : ℚ} {currency base : Code}

def Anchored (results : ProviderResults) (currency : Code) : Prop :=
  ∃ p ∈ direct results currency, 0 < p.2

def Priced (results : ProviderResults) (currency : Code) : Prop :=
  Anchored results currency ∨
    ∃ q ∈ perBase results currency, 0 < q.2.2 ∧ Anchored results q.2.1

theorem anchor_isSome (outlierPct : ℚ) :
    (anchor results outlierPct base).isSome ↔ Anchored results base := by
  rw [anchor,combine_isSome_iff]
  constructor
  · rintro ⟨_,hx,hpos⟩
    obtain ⟨p,hp,rfl⟩ := List.mem_map.1 hx
    exact ⟨p,hp,hpos⟩
  · rintro ⟨p,hp,hpos⟩
    exact ⟨p.2,List.mem_map_of_mem hp,hpos⟩

theorem anchor_resolves (outlierPct : ℚ) {v : ℚ} :
    (∃ a, anchor results outlierPct base = some a ∧ 0 < v * a) ↔ 0 < v ∧ Anchored results base := by
  constructor
  · rintro ⟨a,ha,hpos⟩
    exact ⟨pos_of_mul_pos_left hpos (combine_pos ha).le,
      (anchor_isSome outlierPct).1 (Option.isSome_of_eq_some ha)⟩
  · rintro ⟨hv,hbase⟩
    obtain ⟨a,ha⟩ := Option.isSome_iff_exists.1 ((anchor_isSome outlierPct).2 hbase)
    exact ⟨a,ha,mul_pos hv (combine_pos ha)⟩

theorem mem_resolved {p : ProviderId × ℚ} (h : p ∈ resolved results outlierPct currency) :
    0 < p.2 := by
  obtain ⟨q,-,hresolve⟩ := List.mem_filterMap.1 h
  obtain ⟨a,-,hvalue⟩ := Option.bind_eq_some_iff.1 hresolve
  split at hvalue
  next husable => exact Option.some.inj hvalue ▸ of_decide_eq_true husable
  · cases hvalue

theorem exists_resolved (outlierPct : ℚ) : (∃ p, p ∈ resolved results outlierPct currency) ↔
    ∃ q ∈ perBase results currency, 0 < q.2.2 ∧ Anchored results q.2.1 := by
  constructor
  · rintro ⟨p,hp⟩
    obtain ⟨q,hq,hresolve⟩ := List.mem_filterMap.1 hp
    obtain ⟨a,ha,hvalue⟩ := Option.bind_eq_some_iff.1 hresolve
    split at hvalue
    next husable => exact ⟨q,hq,(anchor_resolves outlierPct).1 ⟨a,ha,of_decide_eq_true husable⟩⟩
    · cases hvalue
  · rintro ⟨q,hq,hresolve⟩
    obtain ⟨a,ha,hpos⟩ := (anchor_resolves outlierPct).2 hresolve
    refine ⟨(q.1,q.2.2 * a),List.mem_filterMap.2 ⟨q,hq,?_⟩⟩
    simp [resolvePerBase,ha,usable,hpos]

theorem aggregateTick_isSome :
    (aggregateTick results outlierPct currency).isSome ↔ Priced results currency := by
  rw [aggregateTick,Option.isSome_map,combine_isSome_iff,Priced,← exists_resolved outlierPct]
  constructor
  · rintro ⟨x,hx,hpos⟩
    obtain ⟨p,hp,rfl⟩ := List.mem_map.1 hx
    exact (List.mem_append.1 hp).imp (fun hp => ⟨p,hp,hpos⟩) fun hp => ⟨p,hp⟩
  · rintro (⟨p,hp,hpos⟩ | ⟨p,hp⟩)
    · exact ⟨p.2,List.mem_map_of_mem (List.mem_append_left _ hp),hpos⟩
    · exact ⟨p.2,List.mem_map_of_mem (List.mem_append_right _ hp),mem_resolved hp⟩

theorem covered_iff : coveredByNonNostr results outlierPct currency ↔
    (∃ p ∈ direct results currency, p.1 ≠ .nostr ∧ 0 < p.2) ∨
      ∃ q ∈ perBase results currency, q.1 ≠ .nostr ∧ 0 < q.2.2 ∧ Anchored results q.2.1 := by
  rw [coveredByNonNostr_iff]
  simp only [anchor_resolves]

theorem direct_restrict_iff {p : ProviderId × ℚ} :
    p ∈ direct (restrictNostrToFallback results outlierPct) currency ↔
      p ∈ direct results currency ∧
        (p.1 = .nostr → coveredByNonNostr results outlierPct currency = false) := by
  refine ⟨mem_direct_restrict,fun ⟨hp,hfree⟩ => ?_⟩
  obtain ⟨r,hr,hid,q,hq,hcode,hv⟩ := mem_direct.1 hp
  refine mem_direct.2 ⟨_,List.mem_map_of_mem hr,?_,q,?_,hcode,hv⟩
  · split <;> exact hid
  · split
    · exact hq
    next hn =>
      have hn : p.1 = .nostr := hid ▸ by simpa using hn
      exact List.mem_filter.2 ⟨hq,by simp [hcode,hfree hn]⟩

theorem perBase_restrict_of {p : ProviderId × Code × ℚ} (hp : p ∈ perBase results currency)
    (hfree : p.1 = .nostr → coveredByNonNostr results outlierPct currency = false) :
    p ∈ perBase (restrictNostrToFallback results outlierPct) currency := by
  obtain ⟨r,hr,hid,q,hq,hcode,hv⟩ := mem_perBase.1 hp
  refine mem_perBase.2 ⟨_,List.mem_map_of_mem hr,?_,q,?_,hcode,hv⟩
  · split <;> exact hid
  · split
    · exact hq
    next hn =>
      have hn : p.1 = .nostr := hid ▸ by simpa using hn
      exact List.mem_filter.2 ⟨hq,by simp [hcode,hfree hn]⟩

/-- Every base of the currency's cross quotes that the other providers cover is quoted directly by
one of them. -/
def BasesQuoted (results : ProviderResults) (outlierPct : ℚ) (currency : Code) : Prop :=
  ∀ q ∈ perBase results currency, coveredByNonNostr results outlierPct q.2.1 →
    ∃ p ∈ direct results q.2.1, p.1 ≠ .nostr ∧ 0 < p.2

def Unchained (results : ProviderResults) (currency : Code) : Prop :=
  ∀ q ∈ perBase results currency, perBase results q.2.1 = []

instance : Decidable (Unchained results currency) :=
  inferInstanceAs (Decidable (∀ q ∈ perBase results currency, perBase results q.2.1 = []))

theorem Unchained.basesQuoted (h : Unchained results currency) :
    BasesQuoted results outlierPct currency := by
  intro q hq hcovered
  rcases covered_iff.1 hcovered with hdirect | ⟨q',hq',-⟩
  · exact hdirect
  · exact absurd hq' (h q hq ▸ List.not_mem_nil)

theorem Anchored.restrict {q : ProviderId × Code × ℚ}
    (hbases : BasesQuoted results outlierPct currency) (hq : q ∈ perBase results currency)
    (h : Anchored results q.2.1) :
    Anchored (restrictNostrToFallback results outlierPct) q.2.1 := by
  by_cases hcovered : coveredByNonNostr results outlierPct q.2.1
  · obtain ⟨p,hp,hid,hpos⟩ := hbases q hq hcovered
    exact ⟨p,direct_restrict_iff.2 ⟨hp,fun hn => absurd hn hid⟩,hpos⟩
  · obtain ⟨p,hp,hpos⟩ := h
    exact ⟨p,direct_restrict_iff.2 ⟨hp,fun _ => by simpa using hcovered⟩,hpos⟩

theorem Priced.restrict (hbases : BasesQuoted results outlierPct currency)
    (h : Priced results currency) :
    Priced (restrictNostrToFallback results outlierPct) currency := by
  by_cases hcovered : coveredByNonNostr results outlierPct currency
  · rcases covered_iff.1 hcovered with ⟨p,hp,hid,hpos⟩ | ⟨q,hq,hid,hpos,hbase⟩
    · exact .inl ⟨p,direct_restrict_iff.2 ⟨hp,fun hn => absurd hn hid⟩,hpos⟩
    · exact .inr ⟨q,perBase_restrict_of hq fun hn => absurd hn hid,hpos,hbase.restrict hbases hq⟩
  · -- nothing is dropped of what is quoted for the currency itself
    have hfree : coveredByNonNostr results outlierPct currency = false := by simpa using hcovered
    rcases h with ⟨p,hp,hpos⟩ | ⟨q,hq,hpos,hbase⟩
    · exact .inl ⟨p,direct_restrict_iff.2 ⟨hp,fun _ => hfree⟩,hpos⟩
    · exact .inr ⟨q,perBase_restrict_of hq fun _ => hfree,hpos,hbase.restrict hbases hq⟩

theorem covered_of_own (h : Priced (ownQuotes results) currency) :
    coveredByNonNostr results outlierPct currency := by
  have hown {c : Code} {p : ProviderId × ℚ} (hp : p ∈ direct (ownQuotes results) c) :
      p ∈ direct results c ∧ p.1 ≠ .nostr := by
    obtain ⟨r,hr,hid,hrest⟩ := mem_direct.1 hp
    obtain ⟨hr,hne⟩ := List.mem_filter.1 hr
    exact ⟨mem_direct.2 ⟨r,hr,hid,hrest⟩,hid ▸ by simpa using hne⟩
  rcases h with ⟨p,hp,hpos⟩ | ⟨q,hq,hpos,p,hp,hanchor⟩
  · exact covered_iff.2 (.inl ⟨p,(hown hp).1,(hown hp).2,hpos⟩)
  · obtain ⟨r,hr,hid,hrest⟩ := mem_perBase.1 hq
    obtain ⟨hr,hne⟩ := List.mem_filter.1 hr
    exact covered_iff.2 (.inr ⟨q,mem_perBase.2 ⟨r,hr,hid,hrest⟩,hid ▸ by simpa using hne,hpos,
      p,(hown hp).1,hanchor⟩)

/-- Restricting the relayed rates to currencies the other providers do not cover loses no price,
where every covered base of its cross quotes is quoted directly by one of them; and no relayed rate
is left for a currency that they price alone. -/
theorem fallback_complete_minimal (results : ProviderResults) (outlierPct : ℚ) :
    (∀ c, BasesQuoted results outlierPct c → (aggregateTick results outlierPct c).isSome →
      (aggregateTick (restrictNostrToFallback results outlierPct) outlierPct c).isSome) ∧
    ∀ c, ∀ p ∈ direct (restrictNostrToFallback results outlierPct) c, p.1 = .nostr →
      aggregateTick (ownQuotes results) outlierPct c = none := by
  constructor
  · intro c hbases h
    exact aggregateTick_isSome.2 ((aggregateTick_isSome.1 h).restrict hbases)
  · intro c p hp hn
    by_contra hsome
    have hcovered : coveredByNonNostr results outlierPct c :=
      covered_of_own (aggregateTick_isSome.1 (Option.isSome_iff_ne_none.2 hsome))
    simp [(direct_restrict_iff.1 hp).2 hn] at hcovered

/-- The only cross quotes of the node are against the dollar, which is quoted directly only by the
relayed event: its peso is redundant, its dollar is not. -/
def relayedAnchor : ProviderResults :=
  [(.elToque,[("CUP",.perBase "USD" 400)]),
    (.nostr,[("USD",.perBtc 60000),("CUP",.perBtc 24000000)])]

theorem fallback_keeps_relayed_anchor :
    (aggregateTick (restrictNostrToFallback relayedAnchor 5) 5 "CUP").isSome ∧
      direct (restrictNostrToFallback relayedAnchor 5) "CUP" = [] := by
  have hbases : BasesQuoted relayedAnchor 5 "CUP" := Unchained.basesQuoted (by decide +kernel)
  exact ⟨(fallback_complete_minimal relayedAnchor 5).1 "CUP" hbases (by decide +kernel),
    by decide +kernel⟩

/-- The dollar is quoted against the euro, so the relayed dollar is dropped as covered; the peso,
covered through that dollar, loses its anchor and its own relayed quote. -/
def chainedBases : ProviderResults :=
  [(.yadio,[("EUR",.perBtc 50000)]),(.coinGecko,[("USD",.perBase "EUR" (11 / 10))]),
    (.elToque,[("CUP",.perBase "USD" 400)]),
    (.nostr,[("USD",.perBtc 55000),("CUP",.perBtc 22000000)])]

theorem fallback_loses_chained :
    (aggregateTick chainedBases 5 "CUP").isSome ∧
      aggregateTick (restrictNostrToFallback chainedBases 5) 5 "CUP" = none := by
  decide +kernel

end Mostro.Prices
