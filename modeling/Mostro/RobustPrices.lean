import Mathlib.Algebra.Order.BigOperators.Group.List
import Mathlib.Tactic.Linarith
import Mostro.OrderStatistics
import Mostro.RepublishedRates

set_option autoImplicit false

/-!
How far the quotes of a minority can move a combined price.  The median lies in every interval that
holds more than half of the usable quotes, and what enters the mean lies in the band around it.
-/

namespace Mostro.Prices

open OrderStatistics

variable {xs ys : List ℚ} {outlierPct a b value : ℚ}

/-- The values `combine` takes the mean of; none where it falls back to the median. -/
def averaged (xs : List ℚ) (outlierPct : ℚ) : List ℚ :=
  let clean := cleanSorted xs
  if clean.length ≤ 2 then clean
  else clean.filter (insideBand (medianSorted clean) outlierPct)

theorem mean_singleton (x : ℚ) : mean [x] = x := by simp [mean]

theorem averaged_few (h : (cleanSorted xs).length ≤ 2) :
    averaged xs outlierPct = cleanSorted xs := if_pos h

theorem averaged_many (h : ¬(cleanSorted xs).length ≤ 2) : averaged xs outlierPct =
    (cleanSorted xs).filter (insideBand (medianSorted (cleanSorted xs)) outlierPct) := if_neg h

theorem combine_eq (hne : cleanSorted xs ≠ []) : combine xs outlierPct =
    some (if averaged xs outlierPct = [] then medianSorted (cleanSorted xs)
      else mean (averaged xs outlierPct)) := by
  simp only [combine]
  split
  next h => exact absurd (List.length_eq_zero_iff.mp h) hne
  next h =>
    obtain ⟨x,hx⟩ := List.length_eq_one_iff.mp h
    rw [averaged_few (by omega),if_neg hne]
    simp [hx,mean_singleton]
  next h => rw [averaged_few (by omega),if_neg hne]
  next h0 h1 h2 =>
    have hmany : ¬(cleanSorted xs).length ≤ 2 := by
      have hn0 : (cleanSorted xs).length ≠ 0 := h0
      have hn1 : (cleanSorted xs).length ≠ 1 := h1
      have hn2 : (cleanSorted xs).length ≠ 2 := h2
      omega
    rw [averaged_many hmany]
    split <;> simp_all

theorem averaged_subset {x : ℚ} (hx : x ∈ averaged xs outlierPct) : x ∈ cleanSorted xs := by
  simp only [averaged] at hx
  split at hx
  · exact hx
  · exact (List.mem_filter.mp hx).1

theorem cleanSorted_sorted (xs : List ℚ) : (cleanSorted xs).SortedLE := List.sortedLE_insertionSort

theorem cleanSorted_perm_filter (xs : List ℚ) : (cleanSorted xs).Perm (xs.filter usable) :=
  List.perm_insertionSort _ _

theorem cleanSorted_congr (h : xs.Perm ys) : cleanSorted xs = cleanSorted ys := by
  refine List.Perm.eq_of_sortedLE (cleanSorted_sorted xs) (cleanSorted_sorted ys) ?_
  calc (cleanSorted xs).Perm (xs.filter usable) := cleanSorted_perm_filter xs
    _ |>.Perm (ys.filter usable) := h.filter usable
    _ |>.Perm (cleanSorted ys) := (cleanSorted_perm_filter ys).symm

theorem combine_congr (h : xs.Perm ys) : combine xs outlierPct = combine ys outlierPct := by
  simp only [combine,cleanSorted_congr h]

theorem le_mean (hne : xs ≠ []) (h : ∀ x ∈ xs, a ≤ x) : a ≤ mean xs := by
  have hlength : 0 < (xs.length : ℚ) := by exact_mod_cast List.length_pos_iff.mpr hne
  have hsum := List.card_nsmul_le_sum xs a h
  rw [nsmul_eq_mul] at hsum
  rw [mean,le_div_iff₀ hlength]
  linarith

theorem mean_le (hne : xs ≠ []) (h : ∀ x ∈ xs, x ≤ b) : mean xs ≤ b := by
  have hlength : 0 < (xs.length : ℚ) := by exact_mod_cast List.length_pos_iff.mpr hne
  have hsum := List.sum_le_card_nsmul xs b h
  rw [nsmul_eq_mul] at hsum
  rw [mean,div_le_iff₀ hlength]
  linarith

theorem medianSorted_mem {l : List ℚ} (hne : l ≠ [])
    (h : ∀ i (hi : i < l.length), l.length ≤ 2 * i + 2 → 2 * i ≤ l.length → a ≤ l[i] ∧ l[i] ≤ b) :
    a ≤ medianSorted l ∧ medianSorted l ≤ b := by
  have hpos : 0 < l.length := List.length_pos_iff.mpr hne
  have hmiddle := h (l.length / 2) (by omega) (by omega) (by omega)
  simp only [medianSorted]
  rw [List.getD_eq_getElem _ _ (show l.length / 2 < l.length by omega)]
  split
  · exact hmiddle
  next heven =>
    have hbelow := h (l.length / 2 - 1) (by omega) (by omega) (by omega)
    rw [List.getD_eq_getElem _ _ (show l.length / 2 - 1 < l.length by omega)]
    constructor <;> linarith [hmiddle.1,hmiddle.2,hbelow.1,hbelow.2]

theorem cleanSorted_ne_nil (h : ∃ x ∈ xs, 0 < x) : cleanSorted xs ≠ [] := by
  obtain ⟨x,hx,hpos⟩ := h
  exact List.ne_nil_of_mem (mem_cleanSorted.mpr ⟨hx,hpos⟩)

theorem combine_between (h : combine xs outlierPct = some value)
    (hab : ∀ x ∈ xs, 0 < x → a ≤ x ∧ x ≤ b) : a ≤ value ∧ value ≤ b := by
  have hne := cleanSorted_ne_nil (combine_isSome_iff.mp (Option.isSome_iff_exists.mpr ⟨value,h⟩))
  have hclean : ∀ x ∈ cleanSorted xs, a ≤ x ∧ x ≤ b := fun x hx =>
    hab x (mem_cleanSorted.mp hx).1 (mem_cleanSorted.mp hx).2
  rw [combine_eq hne] at h
  rw [← Option.some.inj h]
  split
  · exact medianSorted_mem hne fun i hi _ _ => hclean _ (List.getElem_mem hi)
  next hmean =>
    exact ⟨le_mean hmean fun x hx => (hclean x (averaged_subset hx)).1,
      mean_le hmean fun x hx => (hclean x (averaged_subset hx)).2⟩

theorem combine_band (h : combine xs outlierPct = some value) (hp : 0 ≤ outlierPct)
    (hmany : ¬(cleanSorted xs).length ≤ 2) :
    medianSorted (cleanSorted xs) * (1 - outlierPct / 100) ≤ value ∧
      value ≤ medianSorted (cleanSorted xs) * (1 + outlierPct / 100) := by
  have hlen : 0 < (cleanSorted xs).length := by omega
  have hmedian := medianSorted_pos hlen
  have hp : 0 ≤ outlierPct / 100 := by positivity
  rw [combine_eq (List.length_pos_iff.mp hlen)] at h
  rw [← Option.some.inj h]
  have hwidth := mul_nonneg hmedian.le hp
  split
  · constructor <;> linarith
  next hmean =>
    have hband : ∀ x ∈ averaged xs outlierPct,
        |x - medianSorted (cleanSorted xs)| ≤
          medianSorted (cleanSorted xs) * (outlierPct / 100) := by
      rw [averaged_many hmany]
      exact fun x hx => of_decide_eq_true (List.mem_filter.mp hx).2
    refine ⟨le_mean hmean fun x hx => ?_,mean_le hmean fun x hx => ?_⟩
    · linarith [(abs_le.mp (hband x hx)).1]
    · linarith [(abs_le.mp (hband x hx)).2]

theorem combine_majority (h : combine xs outlierPct = some value) (hp : 0 ≤ outlierPct)
    (hthree : 3 ≤ (xs.filter usable).length) (hmaj : Majority a b (xs.filter usable))
    (hab : 0 ≤ a ∨ outlierPct ≤ 100) :
    a * (1 - outlierPct / 100) ≤ value ∧ value ≤ b * (1 + outlierPct / 100) := by
  have hperm := cleanSorted_perm_filter xs
  have hlen : 3 ≤ (cleanSorted xs).length := hperm.length_eq ▸ hthree
  have hne : cleanSorted xs ≠ [] := List.length_pos_iff.mp (by omega)
  obtain ⟨hlow,hhigh⟩ := medianSorted_mem hne fun i hi hl hh =>
    (hmaj.perm hperm.symm).middle (cleanSorted_sorted xs) hi hl hh
  obtain ⟨hfrom,hto⟩ := combine_band h hp (by omega)
  constructor
  · rcases le_or_gt outlierPct 100 with hsmall | hlarge
    · refine le_trans ?_ hfrom
      gcongr
      linarith
    · -- the widened interval reaches below zero
      have ha : 0 ≤ a := hab.resolve_right (not_le.mpr hlarge)
      refine le_trans ?_ (combine_pos h).le
      exact mul_nonpos_of_nonneg_of_nonpos ha (by linarith)
  · refine le_trans hto ?_
    gcongr

theorem mem_dedupSort {ids : List ProviderId} {id : ProviderId} :
    id ∈ dedupSort ids ↔ id ∈ ids := by
  simp [dedupSort,ProviderId.mem_all]

variable {pairs : List (ProviderId × ℚ)}

theorem cleanSorted_length_map :
    (cleanSorted (pairs.map (·.2))).length = (pairs.filter (usable ·.2)).length := by
  rw [(cleanSorted_perm_filter _).length_eq,List.filter_map,List.length_map]
  rfl

theorem mem_filter_usable {keep : ℚ → Bool} {id : ProviderId} :
    id ∈ ((pairs.filter (usable ·.2)).filter (keep ·.2)).map (·.1) ↔
      ∃ v ∈ (cleanSorted (pairs.map (·.2))).filter keep, (id,v) ∈ pairs := by
  constructor
  · intro hid
    obtain ⟨⟨_,v⟩,hp,rfl⟩ := List.mem_map.mp hid
    obtain ⟨hp,hkeep⟩ := List.mem_filter.mp hp
    obtain ⟨hp,hpos⟩ := List.mem_filter.mp hp
    have hv : v ∈ cleanSorted (pairs.map (·.2)) :=
      mem_cleanSorted.mpr ⟨List.mem_map_of_mem hp,of_decide_eq_true hpos⟩
    exact ⟨v,List.mem_filter.mpr ⟨hv,hkeep⟩,hp⟩
  · rintro ⟨v,hv,hp⟩
    obtain ⟨hv,hkeep⟩ := List.mem_filter.mp hv
    have hpos : usable v = true := decide_eq_true (mem_cleanSorted.mp hv).2
    exact List.mem_map.mpr ⟨(id,v),List.mem_filter.mpr ⟨List.mem_filter.mpr ⟨hp,hpos⟩,hkeep⟩,rfl⟩

theorem mem_usable {id : ProviderId} :
    id ∈ (pairs.filter (usable ·.2)).map (·.1) ↔ ∃ v, (id,v) ∈ pairs ∧ 0 < v := by
  simp [usable]

theorem mem_cleanSorted_of_pair {id : ProviderId} :
    (∃ v ∈ cleanSorted (pairs.map (·.2)), (id,v) ∈ pairs) ↔ ∃ v, (id,v) ∈ pairs ∧ 0 < v := by
  constructor
  · rintro ⟨v,hv,hp⟩
    exact ⟨v,hp,(mem_cleanSorted.mp hv).2⟩
  · rintro ⟨v,hp,hpos⟩
    exact ⟨v,mem_cleanSorted.mpr ⟨List.mem_map_of_mem hp,hpos⟩,hp⟩

theorem averaged_nil_iff {keep : ℚ → Bool} :
    (cleanSorted (pairs.map (·.2))).filter keep = [] ↔
      ((pairs.filter (usable ·.2)).filter (keep ·.2)).map (·.1) = [] := by
  simp only [List.eq_nil_iff_forall_not_mem]
  constructor
  · intro h id hid
    obtain ⟨v,hv,_⟩ := mem_filter_usable.mp hid
    exact h v hv
  · intro h v hv
    obtain ⟨⟨id,_⟩,hp,rfl⟩ := List.mem_map.mp (mem_cleanSorted.mp (List.mem_filter.mp hv).1).1
    exact h id (mem_filter_usable.mpr ⟨_,hv,hp⟩)

theorem mem_keptContributors_iff (id : ProviderId) : id ∈ keptContributors pairs outlierPct ↔
    if averaged (pairs.map (·.2)) outlierPct = [] then ∃ v, (id,v) ∈ pairs ∧ 0 < v
    else ∃ v ∈ averaged (pairs.map (·.2)) outlierPct, (id,v) ∈ pairs := by
  simp only [keptContributors]
  by_cases hfew : (cleanSorted (pairs.map (·.2))).length ≤ 2
  · rw [averaged_few hfew,if_pos (cleanSorted_length_map ▸ hfew),mem_dedupSort,mem_usable,
      mem_cleanSorted_of_pair,ite_self]
  · rw [averaged_many hfew,if_neg (cleanSorted_length_map ▸ hfew)]
    by_cases hnone : (cleanSorted (pairs.map (·.2))).filter
        (insideBand (medianSorted (cleanSorted (pairs.map (·.2)))) outlierPct) = []
    · rw [if_pos hnone,if_pos (List.isEmpty_iff.mpr (averaged_nil_iff.mp hnone)),mem_dedupSort,
        mem_usable]
    · rw [if_neg hnone,if_neg fun h => hnone (averaged_nil_iff.mpr (List.isEmpty_iff.mp h)),
        mem_dedupSort,mem_filter_usable]

/-- A combined price is robust against a minority of its quotes, lies between the usable quotes
whatever their order, and the providers reported for it are those whose values it averages. -/
theorem combination_robust (pairs : List (ProviderId × ℚ)) (outlierPct : ℚ) :
    let xs := pairs.map (·.2)
    (∀ a b, 0 ≤ outlierPct → 3 ≤ (xs.filter usable).length → Majority a b (xs.filter usable) →
      0 ≤ a ∨ outlierPct / 100 ≤ 1 → ∃ value, combine xs outlierPct = some value ∧
        a * (1 - outlierPct / 100) ≤ value ∧ value ≤ b * (1 + outlierPct / 100)) ∧
    ((∃ x ∈ xs, 0 < x) → ∃ value, combine xs outlierPct = some value ∧
      ∀ a b, (∀ x ∈ xs, 0 < x → a ≤ x ∧ x ≤ b) → a ≤ value ∧ value ≤ b) ∧
    (∀ ys, xs.Perm ys → combine xs outlierPct = combine ys outlierPct) ∧
    ((∃ x ∈ xs, 0 < x) → combine xs outlierPct =
      some (if averaged xs outlierPct = [] then medianSorted (cleanSorted xs)
        else mean (averaged xs outlierPct))) ∧
    ∀ id, id ∈ keptContributors pairs outlierPct ↔
      if averaged xs outlierPct = [] then ∃ v, (id,v) ∈ pairs ∧ 0 < v
      else ∃ v ∈ averaged xs outlierPct, (id,v) ∈ pairs := by
  intro xs
  have hsome (h : ∃ x ∈ xs, 0 < x) : ∃ value, combine xs outlierPct = some value :=
    Option.isSome_iff_exists.mp (combine_isSome_iff.mpr h)
  refine ⟨?_,?_,fun ys => combine_congr,fun h => combine_eq (cleanSorted_ne_nil h),
    mem_keptContributors_iff⟩
  · intro a b hp hthree hmaj hab
    have hpos : ∃ x ∈ xs, 0 < x := by
      obtain ⟨x,hx⟩ := List.exists_mem_of_length_pos (show 0 < (xs.filter usable).length by omega)
      exact ⟨x,(List.mem_filter.mp hx).1,of_decide_eq_true (List.mem_filter.mp hx).2⟩
    obtain ⟨value,h⟩ := hsome hpos
    have hab : 0 ≤ a ∨ outlierPct ≤ 100 := hab.imp_right fun h => by linarith
    exact ⟨value,h,combine_majority h hp hthree hmaj hab⟩
  · intro hpos
    obtain ⟨value,h⟩ := hsome hpos
    exact ⟨value,h,fun a b => combine_between h⟩

theorem combination_robust_two_of_three :
    ∃ value, combine [100,102,300] 5 = some value ∧ 95 ≤ value ∧ value ≤ 102 * (21 / 20) := by
  obtain ⟨value,h,hlow,hhigh⟩ :=
    (combination_robust [(.yadio,100),(.coinGecko,102),(.blockchain,300)] 5).1 100 102
      (by decide) (by decide) (by simp only [Majority]; decide) (.inl (by decide))
  exact ⟨value,h,by linarith,by linarith⟩

/-- An interval that reaches below zero, widened by more than the whole of its ends, is turned
around: it does not hold the quotes it was drawn around. -/
theorem widened_interval_turned :
    Majority (-1) 1 (([1,1,1] : List ℚ).filter usable) ∧ combine [1,1,1] 300 = some 1 ∧
      ¬(-1 * (1 - 300 / 100) ≤ (1 : ℚ)) :=
  ⟨by simp only [Majority]; decide,by decide +kernel,by norm_num⟩

end Mostro.Prices
