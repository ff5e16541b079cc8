import Mathlib.Data.List.Perm.Subperm
import Mathlib.Logic.Relation
import SoiExercises.Lib.Segment

/-!
# Links that end from every cell

A table of links has no cycle when the links from every cell end in the null pointer. Such a table keeps
this when a link is removed, and when a cell without a link is linked to a cell from which the links do not
lead back to it. This is how a wait-for graph in which everyone waits for at most one other stays free of
deadlock.
-/

namespace SoiExercises.Lib

variable {ι : Type*} {next next' : ι → Option ι} {p q : Option ι} {l : List ι} {x y : ι}

/-- From every cell the links end. -/
def Ending (next : ι → Option ι) : Prop := ∀ x, ∃ l, Listed next (some x) l

/-- A cell of a list whose link is null is its last one. -/
theorem Seg.last_of_none (h : Listed next p l) (inside : x ∈ l) (free : next x = none) :
    ∃ before, l = before ++ [x] := by
  obtain ⟨before, after, rfl⟩ := List.append_of_mem inside
  have rest := h.rest
  rw [free, listed_none] at rest
  exact ⟨before, by rw [rest]⟩

/-- The cells of a list up to one of them. -/
theorem Seg.cut {before after : List ι} (h : Listed next p (before ++ x :: after)) :
    Seg next p before (some x) := by
  obtain ⟨r, first, rfl, -⟩ := seg_append.1 h
  exact first

/-- The cells of a list after the first are those that the links lead to from it. -/
theorem Seg.mem_iff_transGen (h : Listed next (some x) (x :: l)) :
    y ∈ l ↔ Relation.TransGen (fun a b => next a = some b) x y := by
  constructor
  · intro inside
    induction l generalizing x with
    | nil => cases inside
    | cons z l ih =>
      obtain ⟨-, linked, rest⟩ := h
      rcases List.mem_cons.1 inside with rfl | later
      · exact .single linked
      · exact .head linked (ih ⟨rfl, rest⟩ later)
  · intro path
    have reached : ∃ before after, x :: l = before ++ after ∧ before ≠ [] ∧ Listed next (next y) after ∧ y ∈ l := by
      induction path with
      | single linked =>
        obtain ⟨-, rest⟩ := h
        rw [linked] at rest
        cases l with
        | nil => cases rest
        | cons z l =>
          obtain ⟨first, rest⟩ := rest
          obtain rfl := Option.some.inj first
          exact ⟨[x, _], l, rfl, List.cons_ne_nil _ _, rest, List.mem_cons_self⟩
      | tail _ linked ih =>
        obtain ⟨before, after, split, nonempty, rest, -⟩ := ih
        rw [linked] at rest
        cases after with
        | nil => cases rest
        | cons z after =>
          obtain ⟨first, rest⟩ := rest
          obtain rfl := Option.some.inj first
          refine ⟨before ++ [_], after, by rw [split, List.append_assoc, List.singleton_append], by simp, rest, ?_⟩
          cases before with
          | nil => exact absurd rfl nonempty
          | cons z' before =>
            rw [List.cons_append] at split
            rw [(List.cons.inj split).2]
            exact List.mem_append_right before List.mem_cons_self
    obtain ⟨-, -, -, -, -, inside⟩ := reached
    exact inside

/-- A list in which every cell but the last is one of `n` numbers has at most `n + 1` cells. -/
theorem Seg.length_le {next : Nat → Option Nat} {p : Option Nat} {l : List Nat} {n : Nat} (h : Listed next p l)
    (inside : ∀ x ∈ l, next x ≠ none → x < n) : l.length ≤ n + 1 := by
  have bound : l.dropLast.length ≤ n := by
    have distinct : l.dropLast.Nodup := h.nodup.sublist (List.dropLast_sublist l)
    have sub : l.dropLast ⊆ List.range n := by
      intro x hx
      rw [List.mem_range]
      apply inside x (List.dropLast_subset l hx)
      intro free
      obtain ⟨before, rfl⟩ := h.last_of_none (List.dropLast_subset l hx) free
      rw [List.dropLast_concat] at hx
      exact (List.nodup_append.1 h.nodup).2.2 x hx x (List.mem_singleton_self x) rfl
    simpa using (distinct.subperm sub).length_le
  rw [List.length_dropLast] at bound
  omega

namespace Ending

variable [DecidableEq ι]

/-- A new link closes no cycle if its target does not lead back. -/
theorem link (h : Ending next) (free : next x = none) (path : Listed next (some y) l) (apart : x ∉ l) :
    Ending (Function.update next x (some y)) := by
  intro z
  obtain ⟨m, hm⟩ := h z
  by_cases inside : x ∈ m
  · -- the path from `z` ended in `x`, and now goes on from `y`
    obtain ⟨before, rfl⟩ := hm.last_of_none inside free
    have fresh : x ∉ before := fun again =>
      (List.nodup_append.1 hm.nodup).2.2 x again x (List.mem_singleton_self x) rfl
    exact ⟨before ++ [x] ++ l, seg_append.2 ⟨some y, hm.retarget fresh, path.update apart⟩⟩
  · exact ⟨m, hm.update inside⟩

theorem unlink (h : Ending next) (x : ι) : Ending (Function.update next x none) := by
  intro z
  obtain ⟨m, hm⟩ := h z
  by_cases inside : x ∈ m
  · obtain ⟨before, after, rfl⟩ := List.append_of_mem inside
    have fresh : x ∉ before := fun again =>
      (List.nodup_append.1 hm.nodup).2.2 x again x List.mem_cons_self rfl
    refine ⟨before ++ [x], seg_append.2 ⟨some x, hm.cut.update fresh, rfl, ?_⟩⟩
    rw [seg_nil, Function.update_self]
  · exact ⟨m, hm.update inside⟩

omit [DecidableEq ι] in
/-- No two cells are linked to each other. -/
theorem ne_pair (h : Ending next) (there : next x = some y) : next y ≠ some x := by
  intro back
  obtain ⟨l, path⟩ := h x
  have longer : Listed next (some x) (x :: y :: l) := ⟨rfl, there.symm ▸ ⟨rfl, back.symm ▸ path⟩⟩
  have same := congrArg List.length (path.unique longer)
  simp only [List.length_cons] at same
  omega

omit [DecidableEq ι] in
/-- The links from a cell do not lead back to it. -/
theorem acyclic (h : Ending next) : ¬ Relation.TransGen (fun a b => next a = some b) x x := by
  intro loop
  obtain ⟨l, path⟩ := h x
  cases l with
  | nil => cases path
  | cons z l =>
    obtain rfl := Option.some.inj path.1
    exact (List.nodup_cons.1 path.nodup).1 (path.mem_iff_transGen.2 loop)

end Ending

end SoiExercises.Lib
