import Mathlib.Data.Set.Card
import SoiExercises.Lib.Segment

/-!
# What lies on a chain of links

`Reach next p i` says that the links from the pointer `p` lead to the cell `i`, whether the chain ends,
runs into itself or is shared. Clearing the cells of a chain one by one visits exactly these cells
(`Reach.clear`), and comes back to at most one of them (`Clearing.length_le`). `follow next n p` is the list of the
first `n` cells of the chain.
-/

namespace SoiExercises.Lib

variable {ι : Type*}

/-- The links from a pointer lead to the cell `i`. -/
inductive Reach (next : ι → Option ι) : Option ι → ι → Prop
  | here (i : ι) : Reach next (some i) i
  | link {i j : ι} : Reach next (next j) i → Reach next (some j) i

/-- The first `n` cells from a pointer on. -/
def follow (next : ι → Option ι) : Nat → Option ι → List ι
  | 0, _ => []
  | _ + 1, none => []
  | n + 1, some i => i :: follow next n (next i)

/-- The links from a pointer lead on for `n` cells. -/
def Long (next : ι → Option ι) : Nat → Option ι → Prop
  | 0, _ => True
  | _ + 1, none => False
  | n + 1, some i => Long next n (next i)

variable {next next' : ι → Option ι} {p p' q : Option ι} {l : List ι} {i j : ι} {n : Nat}

namespace Reach

theorem none : ¬ Reach next none i := nofun

theorem some_iff : Reach next (some j) i ↔ i = j ∨ Reach next (next j) i := by
  constructor
  · intro h
    cases h with
    | here => exact .inl rfl
    | link h => exact .inr h
  · rintro (rfl | h)
    · exact .here i
    · exact .link h

theorem trans (h : Reach next p j) (h' : Reach next (next j) i) : Reach next p i := by
  induction h with
  | here => exact .link h'
  | link _ ih => exact .link (ih h')

/-- A set of cells that holds the first one and with each cell the next one holds the whole chain. -/
theorem closed {S : ι → Prop} (start : ∀ j, p = some j → S j) (kept : ∀ i j, S i → next i = some j → S j)
    (h : Reach next p i) : S i := by
  induction h with
  | here i => exact start i rfl
  | @link i j _ ih => exact ih fun k hk => kept j k (start j rfl) hk

/-- New links of cells that had none extend the chains. -/
theorem extend (agree : ∀ j, next j ≠ .none → next' j = next j) (h : Reach next p i) : Reach next' p i := by
  induction h with
  | here i => exact .here i
  | @link i j rest ih =>
    by_cases last : next j = .none
    · rw [last] at rest
      exact absurd rest none
    · apply link
      rw [agree j last]
      exact ih

/-- The way to a cell stays if the links of the cells on it stay. -/
theorem avoid (h : Reach next p i) (agree : ∀ j, Reach next (next j) i → next' j = next j) : Reach next' p i := by
  induction h with
  | here i => exact .here i
  | @link i j rest ih =>
    apply link
    rw [agree j rest]
    exact ih agree

/-- A way stays if the cells whose links change lead to its end by their new links. -/
theorem redirect (h : Reach next p i) (agree : ∀ j, next' j = next j ∨ Reach next' (next' j) i) : Reach next' p i := by
  induction h with
  | here i => exact .here i
  | @link i j _ ih =>
    apply link
    rcases agree j with same | leads
    · rw [same]
      exact ih agree
    · exact leads

/-- **Clearing** a cell before going on to the next one loses nothing of the chain. -/
theorem clear [DecidableEq ι] :
    Reach next (some j) i ↔ i = j ∨ Reach (Function.update next j .none) (next j) i := by
  constructor
  · -- a chain that comes back to `j` goes on as it does from `j`
    have cut : ∀ {p}, Reach next p i → i = j ∨ Reach (Function.update next j .none) p i ∨
        Reach (Function.update next j .none) (next j) i := by
      intro p h
      induction h with
      | here i => exact .inr (.inl (.here i))
      | @link i k _ ih =>
        by_cases same : k = j
        · subst same
          rcases ih with rfl | rest | rest
          · exact .inl rfl
          · exact .inr (.inr rest)
          · exact .inr (.inr rest)
        · rcases ih with rfl | rest | rest
          · exact .inl rfl
          · refine .inr (.inl (.link ?_))
            rwa [Function.update_of_ne same]
          · exact .inr (.inr rest)
    intro h
    rcases some_iff.1 h with rfl | rest
    · exact .inl rfl
    · rcases cut rest with rfl | rest | rest
      · exact .inl rfl
      · exact .inr rest
      · exact .inr rest
  · rintro (rfl | h)
    · exact .here i
    · apply link
      refine h.extend fun k linked => ?_
      by_cases same : k = j
      · subst same
        exact absurd (Function.update_self k Option.none next) linked
      · exact (Function.update_of_ne same Option.none next).symm

end Reach

/-- Clearing the chain from a pointer on takes `n` cells, with those that it comes back to. -/
inductive Clearing [DecidableEq ι] : (ι → Option ι) → Option ι → Nat → Prop
  | stop {next : ι → Option ι} : Clearing next none 0
  | clear {next : ι → Option ι} {j : ι} {n : Nat} :
      Clearing (Function.update next j none) (next j) n → Clearing next (some j) (n + 1)

namespace Clearing

/-- Each cell but the last one had a link, and has none any more. -/
theorem length_le_linked [DecidableEq ι] (h : Clearing next p n) (finite : {i | Reach next p i}.Finite) :
    n ≤ {i | Reach next p i ∧ next i ≠ none}.ncard + 1 := by
  induction h with
  | stop => exact Nat.zero_le _
  | @clear next j n rest ih =>
    cases linked : next j with
    | none =>
      rw [linked] at rest
      cases rest
      omega
    | some k =>
      have order := fun i => @Reach.clear ι next i j _
      have fewer : {i | Reach (Function.update next j none) (next j) i} ⊆ {i | Reach next (some j) i} :=
        fun i reached => (order i).2 (.inr reached)
      have smaller : {i | Reach (Function.update next j none) (next j) i ∧ Function.update next j none i ≠ none} ⊂
          {i | Reach next (some j) i ∧ next i ≠ none} := by
        refine Set.ssubset_iff_subset_ne.2 ⟨?_, fun same => ?_⟩
        · rintro i ⟨reached, old⟩
          have other : i ≠ j := by
            rintro rfl
            exact old (Function.update_self i none next)
          rw [Function.update_of_ne other] at old
          exact ⟨fewer reached, old⟩
        · have first : j ∈ {i | Reach next (some j) i ∧ next i ≠ none} :=
            ⟨.here j, by rw [linked]; exact Option.some_ne_none k⟩
          rw [← same] at first
          exact first.2 (Function.update_self j none next)
      have count := Set.ncard_lt_ncard smaller (finite.subset fun i member => member.1)
      have tail := ih (finite.subset fewer)
      omega

/-- **Clearing a chain** takes at most one step more than the chain has cells. -/
theorem length_le [DecidableEq ι] (h : Clearing next p n) (finite : {i | Reach next p i}.Finite) :
    n ≤ {i | Reach next p i}.ncard + 1 := by
  have cells := Set.ncard_le_ncard (fun i (member : Reach next p i ∧ next i ≠ none) => member.1) finite
  have linked := h.length_le_linked finite
  exact le_trans linked (Nat.succ_le_succ cells)

end Clearing

theorem Seg.long (h : Seg next p l q) : Long next l.length p := by
  induction l generalizing p with
  | nil => exact trivial
  | cons x l ih =>
    obtain ⟨rfl, rest⟩ := h
    exact ih rest

/-- The cells of a segment. -/
theorem Seg.follow (h : Seg next p l q) : follow next l.length p = l := by
  induction l generalizing p with
  | nil => rfl
  | cons x l ih =>
    obtain ⟨rfl, rest⟩ := h
    rw [List.length_cons, SoiExercises.Lib.follow, ih rest]

/-- The cells are the same for links that agree where there are links. -/
theorem Long.follow (h : Long next n p) (start : ∀ i, p = some i → p' = some i)
    (agree : ∀ i j, next i = some j → next' i = some j) :
    SoiExercises.Lib.follow next' n p' = SoiExercises.Lib.follow next n p := by
  induction n generalizing p p' with
  | zero => rfl
  | succ n ih =>
    cases p with
    | none => exact h.elim
    | some i =>
      rw [start i rfl, SoiExercises.Lib.follow, SoiExercises.Lib.follow]
      rw [ih h (agree i)]

/-- Only the links before the last cell count. -/
theorem Long.congr (h : Long next n p) (agree : ∀ i ∈ (SoiExercises.Lib.follow next n p).dropLast, next' i = next i) :
    Long next' n p := by
  induction n generalizing p with
  | zero => exact trivial
  | succ n ih =>
    cases p with
    | none => exact h.elim
    | some i =>
      cases n with
      | zero => exact trivial
      | succ n =>
        have more : SoiExercises.Lib.follow next (n + 1) (next i) ≠ [] := by
          intro stop
          cases rest : next i with
          | none =>
            rw [Long, rest] at h
            exact h
          | some j =>
            rw [rest] at stop
            cases stop
        rw [SoiExercises.Lib.follow, List.dropLast_cons_of_ne_nil more] at agree
        rw [Long, agree i List.mem_cons_self]
        exact ih h fun j hj => agree j (List.mem_cons_of_mem i hj)

theorem Long.redirect (h : Long next n p) (agree : ∀ j, next' j = next j ∨ ∀ m, Long next' m (next' j)) :
    Long next' n p := by
  induction n generalizing p with
  | zero => exact trivial
  | succ n ih =>
    cases p with
    | none => exact h.elim
    | some j =>
      rcases agree j with same | long
      · rw [Long, same]
        exact ih h
      · exact long n

/-- A chain that runs into a cycle has no end. -/
theorem Reach.long (cycle : Reach next (next i) i) (h : Reach next p i) : Long next n p := by
  induction n generalizing p with
  | zero => exact trivial
  | succ n ih =>
    cases h with
    | here => exact ih cycle
    | link rest => exact ih rest

/-- The link of a cell of a segment stays in the segment or leads to its end. -/
theorem Seg.next_mem (h : Seg next p l q) (hi : i ∈ l) : next i = q ∨ ∃ j ∈ l, next i = some j := by
  induction l generalizing p with
  | nil => exact absurd hi List.not_mem_nil
  | cons x l ih =>
    obtain ⟨rfl, rest⟩ := h
    rcases List.mem_cons.1 hi with rfl | hi
    · cases l with
      | nil => exact .inl rest
      | cons y l => exact .inr ⟨y, by simp, rest.1⟩
    · rcases ih rest hi with last | ⟨j, hj, linked⟩
      · exact .inl last
      · exact .inr ⟨j, List.mem_cons_of_mem x hj, linked⟩

/-- From each cell of a segment the links lead to its end. -/
theorem Seg.leads (h : Seg next p l (some j)) (hi : i ∈ l) : Reach next (next i) j := by
  induction l generalizing p i with
  | nil => exact absurd hi List.not_mem_nil
  | cons x l ih =>
    obtain ⟨rfl, rest⟩ := h
    rcases List.mem_cons.1 hi with rfl | hi
    · cases l with
      | nil =>
        rw [seg_nil.1 rest]
        exact .here j
      | cons y l =>
        rw [rest.1]
        exact .link (ih rest List.mem_cons_self)
    · exact ih rest hi

theorem Seg.reach (h : Seg next p l q) (hi : i ∈ l) : Reach next p i := by
  induction l generalizing p with
  | nil => exact absurd hi List.not_mem_nil
  | cons x l ih =>
    obtain ⟨rfl, rest⟩ := h
    rcases List.mem_cons.1 hi with rfl | hi
    · exact .here i
    · exact .link (ih rest hi)

end SoiExercises.Lib
