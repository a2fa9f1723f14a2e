import Mathlib.Algebra.Ring.Nat
import Mathlib.Data.List.Basic

/-!
# First fit

One pass over elements with a size each takes every element that still fits into what is left of a
budget. What is taken and what is left make up the budget, and something is taken as soon as one element
fits into all of it.
-/

namespace FirstFit

variable {α : Type} (size : α → Nat)

/-- What is left of the budget, and every element with whether it was taken. -/
def run : Nat → List α → Nat × List (α × Bool)
  | budget, [] => (budget, [])
  | budget, x :: xs =>
    if size x ≤ budget then
      let r := run (budget - size x) xs
      (r.1, (x, true) :: r.2)
    else
      let r := run budget xs
      (r.1, (x, false) :: r.2)

/-- The total size of what was taken. -/
def used (ys : List (α × Bool)) : Nat := ((ys.filter fun y => y.2).map fun y => size y.1).sum

theorem run_cons_of_le {budget : Nat} {x : α} (h : size x ≤ budget) (xs : List α) :
    run size budget (x :: xs) =
      ((run size (budget - size x) xs).1, (x, true) :: (run size (budget - size x) xs).2) := by
  rw [run, if_pos h]

theorem run_cons_of_lt {budget : Nat} {x : α} (h : budget < size x) (xs : List α) :
    run size budget (x :: xs) = ((run size budget xs).1, (x, false) :: (run size budget xs).2) := by
  rw [run, if_neg (by omega)]

theorem used_cons_true (x : α) (ys : List (α × Bool)) : used size ((x, true) :: ys) = size x + used size ys := by
  simp [used]

theorem used_cons_false (x : α) (ys : List (α × Bool)) : used size ((x, false) :: ys) = used size ys := by
  simp [used]

theorem map_fst_run (budget : Nat) (xs : List α) : (run size budget xs).2.map Prod.fst = xs := by
  induction xs generalizing budget with
  | nil => rfl
  | cons x xs ih =>
    by_cases h : size x ≤ budget
    · rw [run_cons_of_le size h, List.map_cons, ih]
    · rw [run_cons_of_lt size (by omega), List.map_cons, ih]

theorem left_add_used (budget : Nat) (xs : List α) :
    (run size budget xs).1 + used size (run size budget xs).2 = budget := by
  induction xs generalizing budget with
  | nil => rfl
  | cons x xs ih =>
    by_cases h : size x ≤ budget
    · have := ih (budget - size x)
      rw [run_cons_of_le size h, used_cons_true]
      omega
    · have := ih budget
      rwa [run_cons_of_lt size (by omega), used_cons_false]

/-- Nothing larger than the budget is taken. -/
theorem size_le_of_taken {budget : Nat} {xs : List α} {x : α} (h : (x, true) ∈ (run size budget xs).2) :
    size x ≤ budget := by
  induction xs generalizing budget with
  | nil => cases h
  | cons y ys ih =>
    by_cases hy : size y ≤ budget
    · rw [run_cons_of_le size hy, List.mem_cons] at h
      rcases h with h | h
      · obtain rfl : x = y := congrArg Prod.fst h
        exact hy
      · have := ih h
        omega
    · rw [run_cons_of_lt size (by omega), List.mem_cons] at h
      rcases h with h | h
      · cases h
      · exact ih h

/-- The pass takes something as soon as something fits. -/
theorem exists_taken {budget : Nat} {xs : List α} (h : ∃ x ∈ xs, size x ≤ budget) :
    ∃ x ∈ xs, (x, true) ∈ (run size budget xs).2 := by
  induction xs with
  | nil => obtain ⟨x, hx, -⟩ := h; cases hx
  | cons y ys ih =>
    by_cases hy : size y ≤ budget
    · exact ⟨y, List.mem_cons_self, by rw [run_cons_of_le size hy]; exact List.mem_cons_self⟩
    · obtain ⟨x, hx, hle⟩ := h
      rcases List.mem_cons.1 hx with rfl | hx
      · exact absurd hle hy
      · obtain ⟨z, hz, htaken⟩ := ih ⟨x, hx, hle⟩
        rw [run_cons_of_lt size (by omega)]
        exact ⟨z, List.mem_cons_of_mem y hz, List.mem_cons_of_mem _ htaken⟩

end FirstFit
