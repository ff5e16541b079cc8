import Mathlib.Algebra.BigOperators.Group.Finset.Piecewise
import Mathlib.Algebra.Order.BigOperators.Group.Finset

/-!
# Tallies over processes

Each of finitely many processes stands at a place, and a place has a weight. `tally weight pos` is the sum
of the weights. When one process moves, the tally changes by the difference of two weights
(`tally_update`), which is all that an invariant about counting processes needs.
-/

namespace SoiExercises.Lib

variable {ι α : Type*} [Fintype ι]

/-- The sum of the weights of the places of the processes. -/
def tally (weight : α → Nat) (pos : ι → α) : Nat := ∑ i, weight (pos i)

variable {weight weight' : α → Nat} {pos : ι → α} {i j : ι}

/-- **One process moves.** -/
theorem tally_update [DecidableEq ι] (weight : α → Nat) (pos : ι → α) (i : ι) (p : α) :
    tally weight (Function.update pos i p) + weight (pos i) = tally weight pos + weight p := by
  have moved : ∀ j, weight (Function.update pos i p j) = Function.update (fun j => weight (pos j)) i (weight p) j := by
    intro j
    by_cases same : j = i
    · subst same
      rw [Function.update_self, Function.update_self]
    · rw [Function.update_of_ne same, Function.update_of_ne same]
  have split := Finset.sum_erase_add Finset.univ (fun j => weight (pos j)) (Finset.mem_univ i)
  unfold tally
  simp only [moved]
  rw [Finset.sum_update_of_mem (Finset.mem_univ i), ← split, Finset.sdiff_singleton_eq_erase]
  omega

theorem le_tally (weight : α → Nat) (pos : ι → α) (i : ι) : weight (pos i) ≤ tally weight pos :=
  Finset.single_le_sum (f := fun j => weight (pos j)) (fun _ _ => Nat.zero_le _) (Finset.mem_univ i)

/-- Two processes with a weight make a tally of two. -/
theorem tally_two (weight : α → Nat) (pos : ι → α) (ne : i ≠ j) : weight (pos i) + weight (pos j) ≤ tally weight pos := by
  classical
  have both := Finset.sum_le_sum_of_subset (f := fun k => weight (pos k)) (Finset.subset_univ {i, j})
  rwa [Finset.sum_pair ne] at both

theorem tally_eq_zero : tally weight pos = 0 ↔ ∀ i, weight (pos i) = 0 := by
  unfold tally
  rw [Finset.sum_eq_zero_iff]
  simp only [Finset.mem_univ, true_implies]

theorem exists_of_tally_pos (pos' : 0 < tally weight pos) : ∃ i, 0 < weight (pos i) := by
  by_contra none
  have zero : tally weight pos = 0 := tally_eq_zero.2 fun i => by
    by_contra some
    exact none ⟨i, Nat.pos_of_ne_zero some⟩
  omega

theorem tally_add : tally (fun p => weight p + weight' p) pos = tally weight pos + tally weight' pos :=
  Finset.sum_add_distrib

/-- The number of processes at some places. -/
theorem tally_indicator {P : α → Prop} [DecidablePred P] :
    tally (fun p => if P p then 1 else 0) pos = (Finset.univ.filter fun i => P (pos i)).card :=
  (Finset.card_filter _ _).symm

end SoiExercises.Lib
