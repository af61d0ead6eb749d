import Mathlib.Algebra.BigOperators.Fin
import Mathlib.Algebra.BigOperators.Group.Finset.Basic
import Mathlib.Tactic.Abel

/-!
# Sums over a family of workers

A quantity that every member of a finite family holds a part of. When one member changes,
the sum changes by the difference of its parts.
-/

namespace Systems

variable {n : Nat} {W M : Type*} [AddCommMonoid M]

/-- The sum of the parts of all members. -/
def total (f : W → M) (ws : Fin n → W) : M := ∑ i, f (ws i)

theorem total_congr {f g : W → M} {ws ws' : Fin n → W} (h : ∀ i, g (ws' i) = f (ws i)) :
    total g ws' = total f ws :=
  Finset.sum_congr rfl fun i _ => h i

theorem total_eq_zero {f : W → M} {ws : Fin n → W} (h : ∀ i, f (ws i) = 0) :
    total f ws = 0 :=
  Finset.sum_eq_zero fun i _ => h i

/-- One member changes from `ws i` to `w`, and the others keep their parts under the new way
of counting. -/
theorem total_update {f g : W → M} {ws : Fin n → W} {i : Fin n} (w : W)
    (h : ∀ j, j ≠ i → g (ws j) = f (ws j)) :
    total g (Function.update ws i w) + f (ws i) = total f ws + g w := by
  have hothers : ∑ j ∈ Finset.univ.erase i, g (Function.update ws i w j) =
      ∑ j ∈ Finset.univ.erase i, f (ws j) := by
    refine Finset.sum_congr rfl fun j hj => ?_
    have hne := Finset.ne_of_mem_erase hj
    rw [Function.update_of_ne hne, h j hne]
  unfold total
  -- take member `i` out of both sums
  rw [← Finset.add_sum_erase _ _ (Finset.mem_univ i), hothers, Function.update_self,
    ← Finset.add_sum_erase _ (fun j => f (ws j)) (Finset.mem_univ i)]
  abel

end Systems
