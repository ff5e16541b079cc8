import Mathlib.Data.List.Basic
import SoiExercises.Lib.Run

/-!
# Weighted round robin

A queue is served from its head, which keeps its place for as many units as its weight says and
then goes to the tail. The state is the queue with the number of units its head has had, and an
event is the element served with the number of the unit. One round serves every element its full
weight, in order, and restores the queue (`Next.round`).
-/

namespace SoiExercises.Lib

variable {α : Type*} (weight : α → Nat)

/-- One unit of service. -/
inductive Next : List α × Nat → α × Nat → List α × Nat → Prop
  | more {i : α} {l : List α} {j : Nat} : j + 1 < weight i → Next (i :: l, j) (i, j) (i :: l, j + 1)
  | last {i : α} {l : List α} {j : Nat} : j + 1 = weight i → Next (i :: l, j) (i, j) (l ++ [i], 0)

/-- The units of `i`'s turn. -/
def turnOf (i : α) : List (α × Nat) := (List.range (weight i)).map (i, ·)

namespace Next

variable {weight} {i : α} {l l' : List α}

theorem units {n : Nat} (within : n < weight i) :
    Run (Next weight) (i :: l, 0) ((List.range n).map (i, ·)) (i :: l, n) := by
  induction n with
  | zero => exact .nil _
  | succ n ih =>
    rw [List.range_succ, List.map_append]
    exact (ih (by omega)).snoc (.more within)

/-- A whole turn moves the head to the tail. -/
theorem turn (pos : 0 < weight i) : Run (Next weight) (i :: l, 0) (turnOf weight i) (l ++ [i], 0) := by
  obtain ⟨n, hn⟩ : ∃ n, weight i = n + 1 := ⟨weight i - 1, by omega⟩
  unfold turnOf
  rw [hn, List.range_succ, List.map_append]
  exact (units (by omega)).snoc (.last hn.symm)

/-- **A round.** The front `l` of the queue is served in order and ends up behind the rest. -/
theorem round (pos : ∀ i ∈ l, 0 < weight i) :
    Run (Next weight) (l ++ l', 0) (l.flatMap (turnOf weight)) (l' ++ l, 0) := by
  induction l generalizing l' with
  | nil => simpa using Run.nil _
  | cons i l ih =>
    have first : Run (Next weight) (i :: (l ++ l'), 0) (turnOf weight i) (l ++ (l' ++ [i]), 0) := by
      have := turn (l := l ++ l') (pos i List.mem_cons_self)
      rwa [List.append_assoc] at this
    have rest : Run (Next weight) (l ++ (l' ++ [i]), 0) (l.flatMap (turnOf weight)) (l' ++ [i] ++ l, 0) :=
      ih fun k hk => pos k (List.mem_cons_of_mem i hk)
    rw [List.append_assoc] at rest
    exact first.trans rest

end Next

end SoiExercises.Lib
