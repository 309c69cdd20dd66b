import Mathlib.Data.List.Sort

set_option autoImplicit false

/-!
The elements of a sorted list by rank: an element is bounded by every value that few enough elements
lie beyond, and the middle of the list lies in every interval that holds more than half of it.
-/

namespace OrderStatistics

theorem countP_add_le {α : Type*} {l : List α} {p q : α → Bool}
    (h : ∀ x ∈ l, p x = true → q x = false) :
    l.countP p + l.countP q ≤ l.length := by
  have hq : l.countP q ≤ l.countP (fun x => ¬p x) := by
    refine List.countP_mono_left fun x hx hqx => ?_
    cases hp : p x with
    | true => simp [h x hx hp] at hqx
    | false => rfl
  have hlen := l.length_eq_countP_add_countP p
  omega

variable {α : Type*} [LinearOrder α] {l : List α} {a b : α} {i : Nat}

theorem le_getElem (hl : l.SortedLE) (hi : i < l.length)
    (h : l.countP (· < a) ≤ i) : a ≤ l[i] := by
  by_contra hlt
  -- the first `i + 1` elements lie below `a` as well
  have hall : ∀ x ∈ l.take (i + 1), decide (x < a) = true := by
    intro x hx
    obtain ⟨j,hj,rfl⟩ := List.mem_iff_getElem.mp hx
    rw [List.length_take] at hj
    rw [List.getElem_take]
    exact decide_eq_true (lt_of_le_of_lt (hl.getElem_le_getElem_of_le (by omega)) (not_le.mp hlt))
  have hcount := (List.take_sublist (i + 1) l).countP_le (p := fun x => decide (x < a))
  rw [List.countP_eq_length.mpr hall,List.length_take] at hcount
  omega

theorem getElem_le (hl : l.SortedLE) (hi : i < l.length)
    (h : l.countP (b < ·) + i < l.length) : l[i] ≤ b := by
  by_contra hlt
  -- so does everything from `i` on lie beyond `b`
  have hall : ∀ x ∈ l.drop i, decide (b < x) = true := by
    intro x hx
    obtain ⟨j,hj,rfl⟩ := List.mem_iff_getElem.mp hx
    rw [List.getElem_drop]
    exact decide_eq_true (lt_of_lt_of_le (not_le.mp hlt) (hl.getElem_le_getElem_of_le (by omega)))
  have hcount := (List.drop_sublist i l).countP_le (p := fun x => decide (b < x))
  rw [List.countP_eq_length.mpr hall,List.length_drop] at hcount
  omega

/-- More than half of the list lies between `a` and `b`. -/
def Majority (a b : α) (l : List α) : Prop := l.length < 2 * l.countP (fun x => a ≤ x ∧ x ≤ b)

theorem Majority.perm {l' : List α} (h : Majority a b l) (hl : l.Perm l') : Majority a b l' := by
  unfold Majority at h ⊢
  rwa [← hl.length_eq,← hl.countP_eq]

theorem Majority.middle (h : Majority a b l) (hl : l.SortedLE) (hi : i < l.length)
    (hlow : l.length ≤ 2 * i + 2) (hhigh : 2 * i ≤ l.length) : a ≤ l[i] ∧ l[i] ≤ b := by
  unfold Majority at h
  constructor
  · refine le_getElem hl hi ?_
    have := countP_add_le (l := l) (p := fun x => decide (x < a))
      (q := fun x => decide (a ≤ x ∧ x ≤ b)) fun x _ hx => by
        simpa using fun hax => absurd hax (not_le.mpr (of_decide_eq_true hx))
    omega
  · refine getElem_le hl hi ?_
    have := countP_add_le (l := l) (p := fun x => decide (b < x))
      (q := fun x => decide (a ≤ x ∧ x ≤ b)) fun x _ hx => by
        simpa using fun _ => of_decide_eq_true hx
    omega

end OrderStatistics
