import Mathlib.Algebra.Order.BigOperators.Group.List
import Mathlib.Data.List.GetD
import Mathlib.Tactic.Positivity
import Mostro.PriceTicks

set_option autoImplicit false

/-!
What a node publishes as its own rate.  A currency whose price rests on a relayed anchor is
withheld; but a cross quote on such an anchor may be dropped as an outlier and still decide which of
the other quotes are kept.
-/

namespace Mostro.Prices

variable {results : ProviderResults} {outlierPct : ℚ} {currency : Code}
variable {xs : List ℚ} {value : ℚ} {p : ProviderId × ℚ}

theorem mem_cleanSorted {x : ℚ} : x ∈ cleanSorted xs ↔ x ∈ xs ∧ 0 < x := by
  simp [cleanSorted,usable]

theorem getD_cleanSorted_pos {i : Nat} (h : i < (cleanSorted xs).length) :
    0 < (cleanSorted xs).getD i 0 := by
  rw [List.getD_eq_getElem _ _ h]
  exact (mem_cleanSorted.1 (List.getElem_mem h)).2

theorem medianSorted_pos (h : 0 < (cleanSorted xs).length) : 0 < medianSorted (cleanSorted xs) := by
  rw [medianSorted]
  have hmiddle : 0 < (cleanSorted xs).getD ((cleanSorted xs).length / 2) 0 :=
    getD_cleanSorted_pos (by omega)
  have hbelow : 0 < (cleanSorted xs).getD ((cleanSorted xs).length / 2 - 1) 0 :=
    getD_cleanSorted_pos (by omega)
  split
  · exact hmiddle
  · positivity

theorem mean_pos (hne : xs ≠ []) (hpos : ∀ x ∈ xs, 0 < x) : 0 < mean xs := by
  have hsum : 0 < xs.sum := List.sum_pos _ hpos hne
  have hlength : 0 < (xs.length : ℚ) := by exact_mod_cast List.length_pos_iff.2 hne
  exact div_pos hsum hlength

theorem combine_pos (h : combine xs outlierPct = some value) : 0 < value := by
  have hclean : ∀ x ∈ cleanSorted xs, 0 < x := fun x hx => (mem_cleanSorted.1 hx).2
  simp only [combine] at h
  split at h
  · cases h
  next hlen => exact Option.some.inj h ▸ getD_cleanSorted_pos (by omega)
  next hlen =>
    exact Option.some.inj h ▸ mean_pos (List.length_pos_iff.1 (by omega)) hclean
  next hlen _ _ =>
    split at h
    · exact Option.some.inj h ▸ medianSorted_pos (Nat.pos_of_ne_zero hlen)
    next hkept =>
      refine Option.some.inj h ▸ mean_pos (by simpa using hkept) fun x hx => ?_
      exact hclean x (List.mem_filter.1 hx).1

theorem combine_isSome_iff : (combine xs outlierPct).isSome ↔ ∃ x ∈ xs, 0 < x := by
  have hlen : (cleanSorted xs).length = 0 ↔ ¬ ∃ x ∈ xs, 0 < x := by
    simp [List.length_eq_zero_iff,List.eq_nil_iff_forall_not_mem,mem_cleanSorted]
  simp only [combine]
  split
  next h => simpa using hlen.1 h
  all_goals first
    | (split <;> simp_all)
    | simp_all

theorem mem_keptContributors {pairs : List (ProviderId × ℚ)} {id : ProviderId}
    (h : id ∈ keptContributors pairs outlierPct) : ∃ p ∈ pairs, p.1 = id ∧ 0 < p.2 := by
  have hdedup : ∀ {l : List (ProviderId × ℚ)}, id ∈ dedupSort (l.map (·.1)) →
      ∃ p ∈ l, p.1 = id := by
    intro l hl
    simpa [dedupSort,ProviderId.mem_all] using hl
  have hclean : (∃ p ∈ pairs.filter (usable ·.2), p.1 = id) → ∃ p ∈ pairs, p.1 = id ∧ 0 < p.2 := by
    rintro ⟨p,hp,rfl⟩
    obtain ⟨hp,hpos⟩ := List.mem_filter.1 hp
    exact ⟨p,hp,rfl,by simpa [usable] using hpos⟩
  simp only [keptContributors] at h
  split at h
  · exact hclean (hdedup h)
  · split at h
    · exact hclean (hdedup h)
    · obtain ⟨p,hp,hid⟩ := hdedup h
      exact hclean ⟨p,(List.mem_filter.1 hp).1,hid⟩

theorem keptContributors_ne_nil {pairs : List (ProviderId × ℚ)}
    (h : (combine (pairs.map (·.2)) outlierPct).isSome) :
    keptContributors pairs outlierPct ≠ [] := by
  obtain ⟨x,hx,hpos⟩ := combine_isSome_iff.1 h
  obtain ⟨p,hp,rfl⟩ := List.mem_map.1 hx
  have hdedup : ∀ {ids : List ProviderId}, ids ≠ [] → dedupSort ids ≠ [] := by
    intro ids hids
    obtain ⟨id,hid⟩ := List.exists_mem_of_ne_nil ids hids
    exact List.ne_nil_of_mem (List.mem_filter.2 ⟨ProviderId.mem_all id,by simpa using hid⟩)
  have hclean : (pairs.filter (usable ·.2)).map (·.1) ≠ [] :=
    List.ne_nil_of_mem (List.mem_map_of_mem (List.mem_filter.2 ⟨hp,by simpa [usable] using hpos⟩))
  simp only [keptContributors]
  split
  · exact hdedup hclean
  · split
    · exact hdedup hclean
    next hkept => exact hdedup (by simpa using hkept)

theorem keptContributors_eq_nostr {pairs : List (ProviderId × ℚ)}
    (hne : keptContributors pairs outlierPct ≠ [])
    (hall : ∀ id ∈ keptContributors pairs outlierPct, id = .nostr) :
    keptContributors pairs outlierPct = [.nostr] := by
  obtain ⟨ids,hids⟩ : ∃ ids, keptContributors pairs outlierPct = dedupSort ids := by
    simp only [keptContributors]
    split
    · exact ⟨_,rfl⟩
    · split <;> exact ⟨_,rfl⟩
  rw [hids] at hne hall ⊢
  obtain ⟨id,hid⟩ := List.exists_mem_of_ne_nil _ hne
  have hiff : ∀ id ∈ ProviderId.all, ids.contains id = (id == .nostr) := by
    intro id' hid'
    have hnostr : ids.contains .nostr := hall id hid ▸ (List.mem_filter.1 hid).2
    cases hc : ids.contains id' with
    | true => simp [hall id' (List.mem_filter.2 ⟨hid',hc⟩)]
    | false =>
      refine (beq_eq_false_iff_ne.2 ?_).symm
      rintro rfl
      simp_all
  rw [dedupSort,List.filter_congr hiff]
  decide

def RelaysDirect (results : ProviderResults) : Prop :=
  ∀ r ∈ results, r.1 = .nostr → ∀ q ∈ r.2, ∃ v, q.2 = .perBtc v

theorem mem_direct : p ∈ direct results currency ↔
    ∃ r ∈ results, r.1 = p.1 ∧ ∃ q ∈ r.2, q.1.toUpper = currency ∧ q.2 = .perBtc p.2 := by
  simp only [direct,List.mem_flatMap,List.mem_filterMap]
  constructor
  · rintro ⟨r,hr,q,hq,h⟩
    split at h
    · grind
    · cases h
  · rintro ⟨r,hr,hid,q,hq,hcode,hquote⟩
    exact ⟨r,hr,q,hq,by simp [hquote,hcode,hid]⟩

theorem mem_perBase {p : ProviderId × Code × ℚ} : p ∈ perBase results currency ↔
    ∃ r ∈ results, r.1 = p.1 ∧ ∃ q ∈ r.2, q.1.toUpper = currency ∧
      ∃ base, q.2 = .perBase base p.2.2 ∧ base.toUpper = p.2.1 := by
  simp only [perBase,List.mem_flatMap,List.mem_filterMap]
  constructor
  · rintro ⟨r,hr,q,hq,h⟩
    split at h
    · cases h
    · grind
  · rintro ⟨r,hr,hid,q,hq,hcode,base,hquote,hbase⟩
    exact ⟨r,hr,q,hq,by simp [hquote,hcode,hid,hbase]⟩

theorem coveredByNonNostr_iff : coveredByNonNostr results outlierPct currency ↔
    (∃ p ∈ direct results currency, p.1 ≠ .nostr ∧ 0 < p.2) ∨
      ∃ q ∈ perBase results currency, q.1 ≠ .nostr ∧
        ∃ a, anchor results outlierPct q.2.1 = some a ∧ 0 < q.2.2 * a := by
  simp only [coveredByNonNostr,List.any_eq_true,Bool.and_eq_true,bne_iff_ne,beq_iff_eq]
  constructor
  · rintro ⟨r,hr,hid,q,hq,hcode,husable⟩
    split at husable
    next v hv =>
      exact .inl ⟨(r.1,v),mem_direct.2 ⟨r,hr,rfl,q,hq,hcode,hv⟩,hid,by simpa [usable] using husable⟩
    next base v hv =>
      split at husable
      next a ha =>
        refine .inr ⟨(r.1,base.toUpper,v),mem_perBase.2 ⟨r,hr,rfl,q,hq,hcode,base,hv,rfl⟩,
          hid,a,ha,by simpa [usable] using husable⟩
      · cases husable
  · rintro (⟨p,hp,hid,hpos⟩ | ⟨p,hp,hid,a,ha,hpos⟩)
    · obtain ⟨r,hr,hrid,q,hq,hcode,hv⟩ := mem_direct.1 hp
      exact ⟨r,hr,hrid ▸ hid,q,hq,hcode,by simpa [hv,usable] using hpos⟩
    · obtain ⟨r,hr,hrid,q,hq,hcode,base,hv,hbase⟩ := mem_perBase.1 hp
      exact ⟨r,hr,hrid ▸ hid,q,hq,hcode,by simpa [hv,hbase,ha,usable] using hpos⟩

theorem mem_restrictNostrToFallback {r : ProviderId × ProviderQuotes}
    (h : r ∈ restrictNostrToFallback results outlierPct) :
    ∃ r' ∈ results, r'.1 = r.1 ∧ ∀ q ∈ r.2, q ∈ r'.2 ∧
      (r.1 = .nostr → coveredByNonNostr results outlierPct q.1.toUpper = false) := by
  obtain ⟨r',hr',rfl⟩ := List.mem_map.1 h
  refine ⟨r',hr',?_,?_⟩
  · split <;> rfl
  · split
    next hid => exact fun q hq => ⟨hq,fun hn => absurd hn (by simpa using hid)⟩
    · intro q hq
      obtain ⟨hq,hfree⟩ := List.mem_filter.1 hq
      exact ⟨hq,fun _ => by simpa using hfree⟩

theorem mem_direct_restrict (h : p ∈ direct (restrictNostrToFallback results outlierPct) currency) :
    p ∈ direct results currency ∧
      (p.1 = .nostr → coveredByNonNostr results outlierPct currency = false) := by
  obtain ⟨r,hr,hid,q,hq,hcode,hv⟩ := mem_direct.1 h
  obtain ⟨r',hr',hid',hquotes⟩ := mem_restrictNostrToFallback hr
  refine ⟨mem_direct.2 ⟨r',hr',hid'.trans hid,q,(hquotes q hq).1,hcode,hv⟩,fun hn => ?_⟩
  rw [← hcode]
  exact (hquotes q hq).2 (hid.trans hn)

theorem mem_perBase_restrict {p : ProviderId × Code × ℚ}
    (h : p ∈ perBase (restrictNostrToFallback results outlierPct) currency) :
    p ∈ perBase results currency := by
  obtain ⟨r,hr,hid,q,hq,hrest⟩ := mem_perBase.1 h
  obtain ⟨r',hr',hid',hquotes⟩ := mem_restrictNostrToFallback hr
  exact mem_perBase.2 ⟨r',hr',hid'.trans hid,q,(hquotes q hq).1,hrest⟩

theorem RelaysDirect.perBase_own (h : RelaysDirect results) {p : ProviderId × Code × ℚ}
    (hp : p ∈ perBase results currency) : p.1 ≠ .nostr := by
  obtain ⟨r,hr,hid,q,hq,-,base,hv,-⟩ := mem_perBase.1 hp
  intro hn
  obtain ⟨v,hv'⟩ := h r hr (hid.trans hn) q hq
  exact absurd (hv.symm.trans hv') (by simp)

def ownQuotes (results : ProviderResults) : ProviderResults :=
  results.filter (·.1 != .nostr)

theorem ownQuotes_restrict (outlierPct : ℚ) :
    ownQuotes (restrictNostrToFallback results outlierPct) =
    ownQuotes results := by
  simp only [ownQuotes,restrictNostrToFallback,List.filter_map]
  rw [List.filter_congr (q := fun r => r.1 != .nostr)]
  · refine (List.map_congr_left fun r hr => ?_).trans (List.map_id _)
    have hid := (List.mem_filter.1 hr).2
    simp_all
  · intro r _
    simp only [Function.comp_apply]
    split <;> rfl

theorem covered_of_resolved (hrelays : RelaysDirect results)
    (h : p ∈ resolved (restrictNostrToFallback results outlierPct) outlierPct currency) :
    coveredByNonNostr results outlierPct currency := by
  obtain ⟨q,hq,hresolve⟩ := List.mem_filterMap.1 h
  obtain ⟨a,ha,hvalue⟩ := Option.bind_eq_some_iff.1 hresolve
  have hq := mem_perBase_restrict hq
  have hapos : 0 < a := combine_pos ha
  have hpos : 0 < q.2.2 := by
    split at hvalue
    next husable => exact pos_of_mul_pos_left (by simpa [usable] using husable) hapos.le
    · cases hvalue
  obtain ⟨x,hx,hxpos⟩ := combine_isSome_iff.1 (Option.isSome_of_eq_some ha)
  obtain ⟨s,hs,rfl⟩ := List.mem_map.1 hx
  have hanchor : (anchor results outlierPct q.2.1).isSome :=
    combine_isSome_iff.2 ⟨s.2,List.mem_map_of_mem (mem_direct_restrict hs).1,hxpos⟩
  obtain ⟨a',ha'⟩ := Option.isSome_iff_exists.1 hanchor
  exact coveredByNonNostr_iff.2
    (.inr ⟨q,hq,hrelays.perBase_own hq,a',ha',mul_pos hpos (combine_pos ha')⟩)

theorem covered_of_republished (hrelays : RelaysDirect results)
    (h : republishableRates (aggregateTick (restrictNostrToFallback results outlierPct) outlierPct)
      currency = some value) : coveredByNonNostr results outlierPct currency := by
  obtain ⟨agg,hagg,-⟩ := Option.map_eq_some_iff.1 h
  obtain ⟨hagg,hkept⟩ := Option.filter_eq_some_iff.1 hagg
  obtain ⟨v,hcombine,rfl⟩ := Option.map_eq_some_iff.1 hagg
  by_contra hcovered
  -- every usable candidate is then a relayed one
  have hrelayed : ∀ p ∈ candidates (restrictNostrToFallback results outlierPct) outlierPct currency,
      0 < p.2 → p.1 = .nostr := by
    intro p hp hpos
    rcases List.mem_append.1 hp with hp | hp
    · by_contra hid
      exact hcovered (coveredByNonNostr_iff.2 (.inl ⟨p,(mem_direct_restrict hp).1,hid,hpos⟩))
    · exact absurd (covered_of_resolved hrelays hp) hcovered
  have hsole : keptContributors (candidates (restrictNostrToFallback results outlierPct) outlierPct
      currency) outlierPct = [.nostr] := by
    refine keptContributors_eq_nostr (keptContributors_ne_nil (Option.isSome_of_eq_some hcombine))
      ?_
    intro id hid
    obtain ⟨p,hp,rfl,hpos⟩ := mem_keptContributors hid
    exact hrelayed p hp hpos
  simp [hsole] at hkept

theorem direct_ownQuotes (results : ProviderResults) (currency : Code) :
    direct (ownQuotes results) currency = (direct results currency).filter (·.1 != .nostr) := by
  induction results with
  | nil => rfl
  | cons r results ih =>
    have hr : ∀ p ∈ direct [r] currency, p.1 = r.1 := by
      intro p hp
      obtain ⟨r',hr',hid,-⟩ := mem_direct.1 hp
      rw [← hid,List.mem_singleton.1 hr']
    have hcons (rs : ProviderResults) : direct (r :: rs) currency = direct [r] currency ++
        direct rs currency := by simp [direct]
    rw [hcons,List.filter_append,← ih]
    cases hown : r.1 != .nostr with
    | true =>
      have hkeep : (direct [r] currency).filter (·.1 != .nostr) = direct [r] currency :=
        List.filter_eq_self.2 fun p hp => (hr p hp).symm ▸ hown
      rw [show ownQuotes (r :: results) = r :: ownQuotes results by simp [ownQuotes,hown],hcons,
        hkeep]
    | false =>
      have hdrop : (direct [r] currency).filter (·.1 != .nostr) = [] :=
        List.filter_eq_nil_iff.2 fun p hp => by rw [hr p hp,hown]; exact Bool.false_ne_true
      rw [show ownQuotes (r :: results) = ownQuotes results by simp [ownQuotes,hown],hdrop,
        List.nil_append]

theorem combine_eq_of_usable {ys : List ℚ} (h : xs.filter usable = ys.filter usable) :
    combine xs outlierPct = combine ys outlierPct := by
  have hclean : cleanSorted xs = cleanSorted ys := by rw [cleanSorted,h,cleanSorted]
  simp only [combine,hclean]

theorem anchor_own_none {base : Code}
    (hp : p ∈ direct (restrictNostrToFallback results outlierPct) base) (hn : p.1 = .nostr)
    {p' : ProviderId × ℚ} (hp' : p' ∈ direct (restrictNostrToFallback results outlierPct) base)
    (hpos : 0 < p'.2) : p'.1 = .nostr := by
  by_contra hown
  have hcovered : coveredByNonNostr results outlierPct base :=
    coveredByNonNostr_iff.2 (.inl ⟨p',(mem_direct_restrict hp').1,hown,hpos⟩)
  simp [(mem_direct_restrict hp).2 hn] at hcovered

theorem anchor_own_or_relayed (base : Code) :
    anchor (ownQuotes (restrictNostrToFallback results outlierPct)) outlierPct base =
        anchor (restrictNostrToFallback results outlierPct) outlierPct base ∨
      anchor (ownQuotes (restrictNostrToFallback results outlierPct)) outlierPct base = none ∧
        anchorUsesNostr (restrictNostrToFallback results outlierPct) outlierPct base := by
  by_cases hrelayed : ∃ p ∈ direct (restrictNostrToFallback results outlierPct) base,
      p.1 = .nostr ∧ 0 < p.2
  · obtain ⟨p,hp,hn,hpos⟩ := hrelayed
    refine .inr ⟨Option.not_isSome_iff_eq_none.1 fun hsome => ?_,?_⟩
    · obtain ⟨x,hx,hxpos⟩ := combine_isSome_iff.1 hsome
      obtain ⟨p',hp',rfl⟩ := List.mem_map.1 hx
      rw [direct_ownQuotes,List.mem_filter] at hp'
      exact bne_iff_ne.1 hp'.2 (anchor_own_none hp hn hp'.1 hxpos)
    · have hne := @keptContributors_ne_nil outlierPct _
        (combine_isSome_iff.2 ⟨p.2,List.mem_map_of_mem hp,hpos⟩)
      obtain ⟨id,hid⟩ := List.exists_mem_of_ne_nil _ hne
      obtain ⟨p',hp',hid',hpos'⟩ := mem_keptContributors hid
      rw [← hid',anchor_own_none hp hn hp' hpos'] at hid
      exact List.contains_iff_mem.2 hid
  · refine .inl (combine_eq_of_usable ?_)
    rw [direct_ownQuotes,List.filter_map,List.filter_map,List.filter_filter]
    refine congrArg _ (List.filter_congr fun p hp => ?_)
    cases hu : usable p.2 with
    | false => simp [hu]
    | true =>
      have hown : p.1 ≠ .nostr := fun hn => hrelayed ⟨p,hp,hn,by simpa [usable] using hu⟩
      simp [hu,hown]

/-- No provider's cross quote that rests on a relayed anchor is dropped as an outlier. -/
def relayedCrossesKept (results : ProviderResults) (outlierPct : ℚ) (currency : Code) : Bool :=
  (nostrAnchoredResolvers results outlierPct currency).all
    ((keptContributors (candidates results outlierPct currency) outlierPct).contains ·)

theorem noRelayedCross_of_republished (hkept : relayedCrossesKept results outlierPct currency)
    (h : republishableRates (aggregateTick results outlierPct) currency = some value) :
    nostrAnchoredResolvers results outlierPct currency = [] := by
  obtain ⟨agg,hagg,-⟩ := Option.map_eq_some_iff.1 h
  obtain ⟨hagg,hfree⟩ := Option.filter_eq_some_iff.1 hagg
  obtain ⟨v,-,rfl⟩ := Option.map_eq_some_iff.1 hagg
  refine List.eq_nil_iff_forall_not_mem.2 fun id hid => ?_
  have hcontributes := List.all_eq_true.1 hkept id hid
  have hdependent : (keptContributors (candidates results outlierPct currency) outlierPct).any
      ((nostrAnchoredResolvers results outlierPct currency).contains ·) :=
    List.any_eq_true.2 ⟨id,List.contains_iff_mem.1 hcontributes,List.contains_iff_mem.2 hid⟩
  rw [Bool.and_eq_true_iff] at hfree
  exact absurd hdependent (by simpa using hfree.2)

theorem republished_eq_own (hrelays : RelaysDirect results)
    (hkept : relayedCrossesKept (restrictNostrToFallback results outlierPct) outlierPct currency)
    (h : republishableRates (aggregateTick (restrictNostrToFallback results outlierPct) outlierPct)
      currency = some value) :
    (aggregateTick (ownQuotes results) outlierPct currency).map (·.value) = some value := by
  have hcovered := covered_of_republished hrelays h
  have hnone := noRelayedCross_of_republished hkept h
  rw [← ownQuotes_restrict outlierPct]
  have hdirect : direct (ownQuotes (restrictNostrToFallback results outlierPct)) currency =
      direct (restrictNostrToFallback results outlierPct) currency := by
    rw [direct_ownQuotes,List.filter_eq_self]
    intro p hp
    rw [bne_iff_ne]
    intro hn
    simp [(mem_direct_restrict hp).2 hn] at hcovered
  have hbase : perBase (ownQuotes (restrictNostrToFallback results outlierPct)) currency =
      perBase (restrictNostrToFallback results outlierPct) currency :=
    @perBase_filter _ _ (· != .nostr) fun q hq => bne_iff_ne.2
    (hrelays.perBase_own (mem_perBase_restrict hq))
  have hcross : ∀ q ∈ perBase (restrictNostrToFallback results outlierPct) currency,
      resolvePerBase (ownQuotes (restrictNostrToFallback results outlierPct)) outlierPct q =
        resolvePerBase (restrictNostrToFallback results outlierPct) outlierPct q := by
    intro q hq
    rcases anchor_own_or_relayed q.2.1 with hsame | ⟨hown,huses⟩
    · rw [resolvePerBase,hsame,resolvePerBase]
    · -- the quote would be a cross on a relayed anchor, of which there is none
      have hdrop : resolvePerBase (restrictNostrToFallback results outlierPct) outlierPct q =
          none := by
        refine Option.not_isSome_iff_eq_none.1 fun hsome => ?_
        have hmem : q.1 ∈ nostrAnchoredResolvers (restrictNostrToFallback results outlierPct)
            outlierPct currency :=
          List.mem_map_of_mem (List.mem_filter.2 ⟨hq,Bool.and_eq_true_iff.2 ⟨hsome,huses⟩⟩)
        rw [hnone] at hmem
        exact List.not_mem_nil hmem
      rw [resolvePerBase,hown,hdrop]
      rfl
  obtain ⟨agg,hagg,rfl⟩ := Option.map_eq_some_iff.1 h
  obtain ⟨v,hcombine,rfl⟩ := Option.map_eq_some_iff.1 (Option.filter_eq_some_iff.1 hagg).1
  have hcandidates : candidates (ownQuotes (restrictNostrToFallback results outlierPct)) outlierPct
      currency = candidates (restrictNostrToFallback results outlierPct) outlierPct currency := by
    simp only [candidates,resolved,hdirect,hbase]
    rw [List.filterMap_congr hcross]
  simp only [aggregateTick,hcandidates,hcombine]
  rfl

theorem mem_parseContent {table : List (Code × ℚ)} {q : Code × Quote} (h : q ∈ parseContent table) :
    ∃ v, q.2 = .perBtc v := by
  have hfold : ∀ (rates : List (Code × ℚ)) (quotes : ProviderQuotes),
      (∀ q ∈ quotes, ∃ v, q.2 = .perBtc v) →
      ∀ q ∈ rates.foldl (fun quotes r =>
        (r.1.toUpper,.perBtc r.2) :: quotes.filter (·.1 != r.1.toUpper)) quotes,
        ∃ v, q.2 = .perBtc v := by
    intro rates
    induction rates with
    | nil => exact fun _ h => h
    | cons r rates ih =>
      intro quotes hquotes
      refine ih _ fun q hq => ?_
      rcases List.mem_cons.1 hq with rfl | hq
      · exact ⟨_,rfl⟩
      · exact hquotes q (List.mem_filter.1 hq).1
  exact hfold _ [] (by simp) q h

theorem relaysDirect_filteredQuotes (settings : PriceSettings) (m : PriceManager)
    (input : TickInput) : RelaysDirect (filteredQuotes settings m input) := by
  intro r hr hid q hq
  obtain ⟨p,-,hfetch⟩ := List.mem_filterMap.1 hr
  obtain ⟨quotes,hquotes,rfl⟩ := Option.map_eq_some_iff.1 hfetch
  rw [show p.id = .nostr from hid] at hquotes
  obtain ⟨e,-,rfl⟩ := Option.map_eq_some_iff.1 hquotes
  have hq : q ∈ (e.content.map parseContent).getD [] := (List.mem_filter.1 hq).1
  cases hcontent : e.content with
  | none => simp [hcontent] at hq
  | some table =>
    have hq : q ∈ parseContent table := by simpa [hcontent] using hq
    exact mem_parseContent hq

theorem ownQuotes_filteredQuotes (settings : PriceSettings) (m : PriceManager) (input : TickInput)
    (events : Option (List RateEvent)) :
    ownQuotes (filteredQuotes settings m { input with events := events }) =
      ownQuotes (filteredQuotes settings m input) := by
  simp only [ownQuotes,filteredQuotes,List.filter_filterMap]
  refine List.filterMap_congr fun p _ => ?_
  cases p.id <;> simp [fetch,Option.filter]
  cases relayedEvent settings { input with events := events } <;>
    cases relayedEvent settings input <;> rfl

/-- A rate published in two ticks that differ in the relayed events only is the same, when in
neither tick a cross quote on a relayed anchor is dropped as an outlier. -/
theorem published_independent_of_relayed (settings : PriceSettings) (m : PriceManager)
    (input : TickInput) (events events' : Option (List RateEvent)) (currency : Code)
    (value value' : ℚ)
    (hkept : relayedCrossesKept (tickResults settings m { input with events := events })
      settings.outlierThresholdPct currency)
    (hkept' : relayedCrossesKept (tickResults settings m { input with events := events' })
      settings.outlierThresholdPct currency)
    (h : publishedRate settings m { input with events := events } currency = some value)
    (h' : publishedRate settings m { input with events := events' } currency = some value') :
    value = value' := by
  simp only [publishedRate,aggregates,tickResults] at h h'
  split at h
  · rw [if_pos ‹_›] at h'
    have hown := republished_eq_own (relaysDirect_filteredQuotes _ _ _) hkept h
    have hown' := republished_eq_own (relaysDirect_filteredQuotes _ _ _) hkept' h'
    rw [ownQuotes_filteredQuotes] at hown hown'
    exact Option.some.inj (hown.symm.trans hown')
  · cases h

def relayedDollar (dollar : ℚ) : List RateEvent :=
  [⟨7,exchangeRatesEventKind,some "mostro-rates",10000,none,some [("USD",dollar)]⟩]

def crossedPeso (ownDollar : ProviderQuotes) (dollar : ℚ) : TickInput where
  startedAt := 10000
  rankedAt := 10000
  failedAt := 10000
  storedAt := 10000
  quotes
    | .yadio => some (("CUP",.perBtc 40000000) :: ownDollar)
    | .currencyApi => some [("CUP",.perBtc 42800000)]
    | .elToque => some [("CUP",.perBase "USD" 400)]
    | _ => none
  events := some (relayedDollar dollar)

def crossedProviders : PriceSettings where
  providers := [{ id := .yadio },{ id := .currencyApi },{ id := .elToque },{ id := .nostr }]
  trustedNodes := [7]

/-- Where only the relayed event quotes the dollar, it decides which of the two own quotes of the
peso is published. -/
theorem published_follows_relayed :
    publishedRate crossedProviders {} (crossedPeso [] 50000) "CUP" = some 40000000 ∧
      publishedRate crossedProviders {} (crossedPeso [] 150000) "CUP" = some 42800000 := by
  decide +kernel

theorem published_independent_of_relayed_dollar :
    publishedRate crossedProviders {} (crossedPeso [("USD",.perBtc 100000)] 50000) "CUP" =
        some 40000000 ∧
      publishedRate crossedProviders {} (crossedPeso [("USD",.perBtc 100000)] 150000) "CUP" =
        some 40000000 ∧ (40000000 : ℚ) = 40000000 :=
  ⟨by decide +kernel,by decide +kernel,
    published_independent_of_relayed crossedProviders {} (crossedPeso [("USD",.perBtc 100000)] 0)
      (some (relayedDollar 50000)) (some (relayedDollar 150000)) "CUP" 40000000 40000000
      (by decide +kernel) (by decide +kernel) (by decide +kernel) (by decide +kernel)⟩

end Mostro.Prices
