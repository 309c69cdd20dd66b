import Mathlib.Data.List.Basic
import Mathlib.Algebra.BigOperators.Group.List.Basic

set_option autoImplicit false

/-!
Relational tables as lists of rows: `UPDATE … SET … WHERE …` and the facts about it that do not
depend on what the rows are.
-/

namespace SqlTable

variable {α β : Type}

/-- `UPDATE t SET f WHERE p`. -/
def updateWhere (p : α → Bool) (f : α → α) (rows : List α) : List α :=
  rows.map fun r => if p r then f r else r

def affected (p : α → Bool) (rows : List α) : Nat := rows.countP p

theorem mem_updateWhere {p : α → Bool} {f : α → α} {rows : List α} {r : α} :
    r ∈ updateWhere p f rows ↔ ∃ q ∈ rows, (if p q then f q else q) = r := by
  simp [updateWhere]

theorem forall_updateWhere {p : α → Bool} {f : α → α} {rows : List α} {P : α → Prop}
    (h : ∀ r ∈ rows, P r) (hf : ∀ r ∈ rows, p r = true → P r → P (f r)) :
    ∀ r ∈ updateWhere p f rows, P r := by
  intro r hr
  obtain ⟨q,hq,rfl⟩ := mem_updateWhere.mp hr
  split
  next hp => exact hf q hq hp (h q hq)
  next => exact h q hq

theorem map_updateWhere {p : α → Bool} {f : α → α} {rows : List α} (key : α → β)
    (hf : ∀ r ∈ rows, p r = true → key (f r) = key r) :
    (updateWhere p f rows).map key = rows.map key := by
  rw [updateWhere,List.map_map]
  refine List.map_congr_left fun r hr => ?_
  by_cases hp : p r = true
  · simp [hp,hf r hr hp]
  · simp [hp]

theorem affected_pos {p : α → Bool} {rows : List α} :
    0 < affected p rows ↔ ∃ r ∈ rows, p r = true := by
  simp [affected,List.countP_pos_iff]

end SqlTable
