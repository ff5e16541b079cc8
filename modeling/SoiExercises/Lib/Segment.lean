import Mathlib.Data.List.Basic
import Mathlib.Logic.Function.Basic

/-!
# Singly linked lists in a table

A table of cells has a link function `next : ι → Option ι`; `none` is the null pointer.
`Seg next p l q` says that the links from the pointer `p` visit the cells `l` in order and arrive
at the pointer `q`, and `Listed next p l` that they end in the null pointer. A segment reads only
the links of its own cells (`Seg.congr`), and a null-terminated list is determined by its pointer
(`Seg.unique`), so it visits no cell twice.
-/

namespace SoiExercises.Lib

variable {ι : Type*}

/-- Following `next` from `p` visits the cells `l` and arrives at `q`. -/
def Seg (next : ι → Option ι) : Option ι → List ι → Option ι → Prop
  | p, [], q => p = q
  | p, x :: l, q => p = some x ∧ Seg next (next x) l q

/-- Following `next` from `p` visits the cells `l` and ends. -/
abbrev Listed (next : ι → Option ι) (p : Option ι) (l : List ι) : Prop := Seg next p l none

variable {next next' : ι → Option ι} {p q : Option ι} {l l' : List ι} {x y : ι}

@[simp] theorem seg_nil : Seg next p [] q ↔ p = q := Iff.rfl

@[simp] theorem seg_cons : Seg next p (x :: l) q ↔ p = some x ∧ Seg next (next x) l q := Iff.rfl

theorem seg_append : Seg next p (l ++ l') q ↔ ∃ r, Seg next p l r ∧ Seg next r l' q := by
  induction l generalizing p with
  | nil => simp
  | cons x l ih => simp [ih, and_assoc]

/-- Cells that are linked in the order of a list are a segment. -/
theorem seg_of_links (linked : ∀ (k : Nat) (hk : k < l.length), next l[k] = l[k + 1]?.or q) : Seg next (l.head?.or q) l q := by
  induction l with
  | nil => exact Option.none_or
  | cons x l ih =>
    refine ⟨rfl, ?_⟩
    have first : next x = l[0]?.or q := linked 0 (Nat.succ_pos l.length)
    rw [first, ← List.head?_eq_getElem?]
    exact ih fun k hk => linked (k + 1) (Nat.succ_lt_succ hk)

/-- A segment reads only the links of its own cells. -/
theorem Seg.congr (h : Seg next p l q) (agree : ∀ x ∈ l, next' x = next x) : Seg next' p l q := by
  induction l generalizing p with
  | nil => exact h
  | cons x l ih =>
    obtain ⟨rfl, rest⟩ := h
    refine ⟨rfl, ?_⟩
    rw [agree x List.mem_cons_self]
    exact ih rest fun y hy => agree y (List.mem_cons_of_mem x hy)

/-- A link outside the segment can be overwritten. -/
theorem Seg.update [DecidableEq ι] {v : Option ι} (h : Seg next p l q) (outside : y ∉ l) :
    Seg (Function.update next y v) p l q :=
  h.congr fun _ hx => Function.update_of_ne (ne_of_mem_of_not_mem hx outside) v next

/-- A segment holds the cell that it starts at, unless it is empty. -/
theorem Seg.start (h : Seg next (some x) l q) : x ∈ l ∨ q = some x := by
  cases l with
  | nil => exact .inr h.symm
  | cons y l =>
    obtain rfl := Option.some.inj h.1
    exact .inl List.mem_cons_self

theorem Seg.head? (h : Listed next p l) : p = l.head? := by
  cases l with
  | nil => exact h
  | cons x l => exact h.1

@[simp] theorem listed_none : Listed next none l ↔ l = [] := by
  cases l <;> simp

/-- The pointer determines the list. -/
theorem Seg.unique (h : Listed next p l) (h' : Listed next p l') : l = l' := by
  induction l generalizing p l' with
  | nil =>
    obtain rfl := seg_nil.1 h
    exact (listed_none.1 h').symm
  | cons x l ih =>
    obtain ⟨rfl, rest⟩ := h
    cases l' with
    | nil => exact absurd (seg_nil.1 h') (Option.some_ne_none x)
    | cons x' l' =>
      obtain ⟨e, rest'⟩ := h'
      cases e
      rw [ih rest rest']

/-- A null-terminated list visits no cell twice. -/
theorem Seg.nodup (h : Listed next p l) : l.Nodup := by
  induction l generalizing p with
  | nil => exact List.nodup_nil
  | cons x l ih =>
    refine List.nodup_cons.2 ⟨fun again => ?_, ih h.2⟩
    -- from the second visit on, the list would be both `l`'s tail and all of `x :: l`
    obtain ⟨before, after, rfl⟩ := List.append_of_mem again
    obtain ⟨r, -, rest⟩ := seg_append.1 h.2
    have same := h.2.unique rest.2
    have := congrArg List.length same
    simp at this
    omega

/-- The link of a cell is the rest of the list. -/
theorem Seg.rest (h : Listed next p (l ++ x :: l')) : Listed next (next x) l' := by
  obtain ⟨r, -, rest⟩ := seg_append.1 h
  exact rest.2

/-- Writing the link of the last cell of a segment retargets the segment. -/
theorem Seg.retarget [DecidableEq ι] {r : Option ι} (h : Seg next p (l ++ [x]) q) (fresh : x ∉ l) :
    Seg (Function.update next x r) p (l ++ [x]) r := by
  obtain ⟨s, first, last, -⟩ := seg_append.1 h
  exact seg_append.2 ⟨s, first.update fresh, last, seg_nil.2 (Function.update_self x r next)⟩

/-- Two link writes put a cell at the end. -/
theorem Seg.snoc [DecidableEq ι] (h : Listed next p (l ++ [x])) (fresh : y ∉ l ++ [x]) :
    Listed (Function.update (Function.update next x (some y)) y none) p (l ++ [x] ++ [y]) := by
  have last : x ∉ l := fun again => (List.nodup_append.1 h.nodup).2.2 x again x (List.mem_singleton_self x) rfl
  refine seg_append.2 ⟨some y, (h.retarget last).update fresh, rfl, ?_⟩
  rw [seg_nil, Function.update_self]

/-- Moving the first cell to the end takes two link writes. -/
theorem Seg.rotate [DecidableEq ι] (h : Listed next p (x :: (l ++ [y]))) :
    Listed (Function.update (Function.update next y (some x)) x none) (next x) (l ++ [y] ++ [x]) := by
  have distinct : (x :: (l ++ [y])).Nodup := h.nodup
  have first : x ∉ l ++ [y] := (List.nodup_cons.1 distinct).1
  have last : y ∉ l := fun again =>
    (List.nodup_append.1 (List.nodup_cons.1 distinct).2).2.2 y again y (List.mem_singleton_self y) rfl
  obtain ⟨-, rest⟩ := seg_cons.1 h
  have linked : Seg (Function.update next y (some x)) (next x) (l ++ [y]) (some x) := rest.retarget last
  refine seg_append.2 ⟨some x, linked.update first, rfl, ?_⟩
  rw [seg_nil, Function.update_self]

/-- One link write takes a cell other than the first off the list. -/
theorem Seg.remove [DecidableEq ι] (h : Listed next p (l ++ x :: y :: l')) :
    Listed (Function.update next x (next y)) p (l ++ x :: l') := by
  have distinct := List.nodup_append.1 h.nodup
  have before : x ∉ l := fun again => distinct.2.2 x again x List.mem_cons_self rfl
  have after : x ∉ l' := fun again =>
    (List.nodup_cons.1 distinct.2.1).1 (List.mem_cons_of_mem y again)
  obtain ⟨r, first, rfl, -, rest⟩ := seg_append.1 h
  refine seg_append.2 ⟨some x, first.update before, rfl, ?_⟩
  rw [Function.update_self]
  exact rest.update after

/-- Two link writes put a cell behind one of the list. -/
theorem Seg.insert [DecidableEq ι] (h : Listed next p (l ++ x :: l')) (fresh : y ∉ l ++ x :: l') :
    Listed (Function.update (Function.update next y (next x)) x (some y)) p (l ++ x :: y :: l') := by
  have distinct := List.nodup_append.1 h.nodup
  have before : x ∉ l := fun again => distinct.2.2 x again x List.mem_cons_self rfl
  have after : x ∉ l' := (List.nodup_cons.1 distinct.2.1).1
  have fresh_l : y ∉ l := fun hy => fresh (List.mem_append_left _ hy)
  have fresh_l' : y ∉ l' := fun hy => fresh (List.mem_append_right l (List.mem_cons_of_mem x hy))
  have ne : y ≠ x := by
    rintro rfl
    exact fresh (List.mem_append_right l List.mem_cons_self)
  obtain ⟨r, first, rfl, rest⟩ := seg_append.1 h
  refine seg_append.2 ⟨some x, (first.update fresh_l).update before, rfl, ?_, ?_⟩
  · rw [Function.update_self]
  · rw [Function.update_of_ne ne, Function.update_self]
    exact (rest.update fresh_l').update after

end SoiExercises.Lib
