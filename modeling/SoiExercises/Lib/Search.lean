import Mathlib.Data.Finset.Insert
import Mathlib.Logic.Relation

/-!
# Searching a relation

`Explored R root seen pending` is what a search knows that has seen the finite set `seen`: it has been led
there from `root`, and every edge out of `seen` leads into it again or is still `pending`. A search may take up
pending edges in any order; when none is left it has seen exactly what `root` leads to.
-/

namespace SoiExercises.Lib

variable {α : Type*} {R : α → α → Prop} {root x y : α} {seen : Finset α} {pending pending' : α → α → Prop}

/-- The search from `root` has seen `seen`, and the edges that are `pending` are still to be looked at. -/
structure Explored (R : α → α → Prop) (root : α) (seen : Finset α) (pending : α → α → Prop) : Prop where
  start : root ∈ seen
  sound : ∀ x ∈ seen, Relation.ReflTransGen R root x
  complete : ∀ x ∈ seen, ∀ y, R x y → y ∈ seen ∨ pending x y

namespace Explored

/-- At the beginning the edges of `root` are pending. -/
theorem init : Explored R root {root} (fun x _ => x = root) where
  start := Finset.mem_singleton_self root
  sound x hx := by
    rw [Finset.mem_singleton.1 hx]
  complete x hx y _ := .inr (Finset.mem_singleton.1 hx)

/-- Other pending edges will do if they cover those that do not lead to what has been seen. -/
theorem mono (h : Explored R root seen pending)
    (cover : ∀ x ∈ seen, ∀ y, R x y → pending x y → y ∈ seen ∨ pending' x y) : Explored R root seen pending' where
  start := h.start
  sound := h.sound
  complete x hx y edge := (h.complete x hx y edge).elim .inl (cover x hx y edge)

/-- **A visit** along an edge makes the edges of its end pending. -/
theorem visit [DecidableEq α] (h : Explored R root seen pending) (hx : x ∈ seen) (edge : R x y) :
    Explored R root (insert y seen) (fun a b => a = y ∨ pending a b) where
  start := Finset.mem_insert_of_mem h.start
  sound z hz := by
    rcases Finset.mem_insert.1 hz with rfl | hz
    · exact (h.sound x hx).tail edge
    · exact h.sound z hz
  complete z hz b edge := by
    rcases Finset.mem_insert.1 hz with rfl | hz
    · exact .inr (.inl rfl)
    · exact (h.complete z hz b edge).imp Finset.mem_insert_of_mem .inr

/-- **With nothing pending** the search has seen what `root` leads to. -/
theorem finished (h : Explored R root seen fun _ _ => False) : x ∈ seen ↔ Relation.ReflTransGen R root x := by
  constructor
  · exact h.sound x
  · intro path
    induction path with
    | refl => exact h.start
    | tail _ edge ih => exact (h.complete _ ih _ edge).resolve_right id

end Explored

end SoiExercises.Lib
