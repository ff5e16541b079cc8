import SoiExercises.Descendants.Main
import SoiExercises.Lib.Search

/-!
# The counts are exact

A slot in use is a child of the slot that its `mp_parent` names. The stack holds the visited slots whose
children have not been looked at, so it never holds a slot twice nor the one that is about to be pushed, and
when it is empty the visited slots are those that the children lead to.
-/

namespace SoiExercises.Descendants

open SoiExercises.Lib

variable {NR_PROCS : Nat} {mproc : Fin NR_PROCS → Mproc} {p i c : Fin NR_PROCS} {l : List (Fin NR_PROCS)}
  {s t : Search NR_PROCS}

/-- The slot `i` is in use and a child of the slot `p`. -/
def Child (mproc : Fin NR_PROCS → Mproc) (p i : Fin NR_PROCS) : Prop := (mproc i).inUse ∧ (mproc i).mpParent = p

/-- The slots other than `p` that one or more child steps from `p` lead to. -/
def Descendant (mproc : Fin NR_PROCS → Mproc) (p i : Fin NR_PROCS) : Prop :=
  i ≠ p ∧ Relation.TransGen (Child mproc) p i

open Classical in
/-- How many they are. -/
noncomputable def descendants (mproc : Fin NR_PROCS → Mproc) (p : Fin NR_PROCS) : Nat :=
  (Finset.univ.filter (Descendant mproc p)).card

/-- The search from `p`, with the edges that are `pending`. -/
structure Searching (mproc : Fin NR_PROCS → Mproc) (p : Fin NR_PROCS) (s : Search NR_PROCS)
    (pending : Fin NR_PROCS → Fin NR_PROCS → Prop) : Prop where
  explored : Explored (Child mproc) p s.visited pending
  nodup : s.stack.Nodup
  visited : ∀ i ∈ s.stack, i ∈ s.visited
  count : s.descendants + 1 = s.visited.card

/-- Between two rounds of the `while` loop the children of the stack are pending. -/
abbrev Search.onStack (s : Search NR_PROCS) (i _ : Fin NR_PROCS) : Prop := i ∈ s.stack

/-- In the `for` loop so are those of the slot `c` that are still to come. -/
abbrev Search.scanning (s : Search NR_PROCS) (c : Fin NR_PROCS) (l : List (Fin NR_PROCS)) (i j : Fin NR_PROCS) : Prop :=
  i ∈ s.stack ∨ i = c ∧ j ∈ l

namespace Searching

/-- There is room on the stack for a slot that has not been visited. -/
theorem room {pending : Fin NR_PROCS → Fin NR_PROCS → Prop} (h : Searching mproc p s pending) (new : i ∉ s.visited) :
    s.stack.length < NR_PROCS := by
  have stack : s.stack.toFinset ⊆ s.visited := fun j hj => h.visited j (List.mem_toFinset.1 hj)
  have bound := Finset.card_le_card stack
  rw [List.toFinset_card_of_nodup h.nodup] at bound
  have all := Finset.card_le_univ (insert i s.visited)
  rw [Finset.card_insert_of_notMem new, Fintype.card_fin] at all
  omega

/-- **The `for` loop** visits the children of `c` that have not been visited. -/
theorem scan (h : Searching mproc p s (s.scanning c l)) (hc : c ∈ s.visited) :
    ∃ t, Search.scan mproc c l s = .ok t ∧ Searching mproc p t t.onStack := by
  induction l generalizing s with
  | nil =>
    refine ⟨s, rfl, ⟨?_, h.nodup, h.visited, h.count⟩⟩
    refine h.explored.mono fun x _ y _ pending => .inr ?_
    rcases pending with stacked | ⟨-, nowhere⟩
    · exact stacked
    · exact absurd nowhere List.not_mem_nil
  | cons i l ih =>
    unfold Search.scan
    split
    case isTrue child =>
      obtain ⟨inUse, parent, new⟩ := child
      have pushed : { s with descendants := s.descendants + 1 }.push i = .ok
          { descendants := s.descendants + 1, stack := i :: s.stack, visited := insert i s.visited } :=
        if_pos (h.room new)
      rw [pushed, ok_bind]
      refine ih ⟨?_, ?_, ?_, ?_⟩ (Finset.mem_insert_of_mem hc)
      · refine (h.explored.visit hc ⟨inUse, parent⟩).mono fun x _ y _ pending => ?_
        rcases pending with rfl | stacked | ⟨rfl, later⟩
        · exact .inr (.inl List.mem_cons_self)
        · exact .inr (.inl (List.mem_cons_of_mem i stacked))
        · rcases List.mem_cons.1 later with rfl | later
          · exact .inl (Finset.mem_insert_self _ _)
          · exact .inr (.inr ⟨rfl, later⟩)
      · exact List.nodup_cons.2 ⟨fun stacked => new (h.visited i stacked), h.nodup⟩
      · intro j hj
        rcases List.mem_cons.1 hj with rfl | hj
        · exact Finset.mem_insert_self _ _
        · exact Finset.mem_insert_of_mem (h.visited j hj)
      · show s.descendants + 1 + 1 = (insert i s.visited).card
        rw [Finset.card_insert_of_notMem new, h.count]
    case isFalse other =>
      refine ih ⟨?_, h.nodup, h.visited, h.count⟩ hc
      refine h.explored.mono fun x _ y edge pending => ?_
      rcases pending with stacked | ⟨rfl, later⟩
      · exact .inr (.inl stacked)
      · rcases List.mem_cons.1 later with rfl | later
        · left
          by_contra new
          exact other ⟨edge.1, edge.2, new⟩
        · exact .inr (.inr ⟨rfl, later⟩)

/-- Popping a slot leaves its children to the `for` loop. -/
theorem pop {stack : List (Fin NR_PROCS)} (h : Searching mproc p s s.onStack) (top : s.stack = c :: stack) :
    Searching mproc p { s with stack := stack } (Search.scanning { s with stack := stack } c (List.finRange NR_PROCS)) := by
  have nodup := h.nodup
  rw [top] at nodup
  refine ⟨?_, (List.nodup_cons.1 nodup).2, fun i hi => ?_, h.count⟩
  · refine h.explored.mono fun x _ y _ stacked => .inr ?_
    rw [Search.onStack, top] at stacked
    rcases List.mem_cons.1 stacked with rfl | stacked
    · exact .inr ⟨rfl, List.mem_finRange y⟩
    · exact .inl stacked
  · exact h.visited i (top ▸ List.mem_cons_of_mem c hi)

/-- With an empty stack the search is over. -/
theorem finished (h : Searching mproc p s s.onStack) (empty : s.stack = []) :
    i ∈ s.visited ↔ Relation.ReflTransGen (Child mproc) p i := by
  have done : Explored (Child mproc) p s.visited fun _ _ => False := by
    refine h.explored.mono fun x _ y _ stacked => ?_
    rw [Search.onStack, empty] at stacked
    exact absurd stacked List.not_mem_nil
  exact done.finished

end Searching

theorem loop_empty (empty : s.stack = []) : s.loop mproc = .ok s.descendants := by
  unfold Search.loop
  split
  case h_1 => rfl
  case h_2 more =>
    rw [empty] at more
    cases more

theorem loop_pop {stack : List (Fin NR_PROCS)} (top : s.stack = c :: stack)
    (scanned : Search.scan mproc c (List.finRange NR_PROCS) { s with stack := stack } = .ok t) :
    s.loop mproc = t.loop mproc := by
  conv_lhs => unfold Search.loop
  split
  case h_1 empty =>
    rw [top] at empty
    cases empty
  case h_2 c' stack' top' =>
    obtain ⟨rfl, rfl⟩ := List.cons.inj (top.symm.trans top')
    split
    case h_1 t' scanned' =>
      rw [scanned] at scanned'
      cases scanned'
      rfl
    case h_2 e scanned' =>
      rw [scanned] at scanned'
      cases scanned'

/-- **The `while` loop** ends with every slot visited that `p` leads to. -/
theorem Searching.loop (h : Searching mproc p s s.onStack) : ∃ visited : Finset (Fin NR_PROCS),
    s.loop mproc = .ok (visited.card - 1) ∧ ∀ i, i ∈ visited ↔ Relation.ReflTransGen (Child mproc) p i := by
  induction s using Search.loop.induct mproc with
  | case1 s empty =>
    refine ⟨s.visited, ?_, fun i => h.finished empty⟩
    rw [loop_empty empty, ← h.count]
    rfl
  | case2 s c stack top t scanned ih =>
    obtain ⟨t', done, searching⟩ := (h.pop top).scan (h.visited c (top ▸ List.mem_cons_self))
    obtain rfl : t = t' := Except.ok.inj (scanned.symm.trans done)
    rw [loop_pop top scanned]
    exact ih searching
  | case3 s c stack top e failed =>
    obtain ⟨t', done, -⟩ := (h.pop top).scan (h.visited c (top ▸ List.mem_cons_self))
    cases failed.symm.trans done

/-- **`count_descendants` is exact**: its stack does not overflow, and it returns the number of descendants. -/
theorem countDescendants_eq (mproc : Fin NR_PROCS → Mproc) (p : Fin NR_PROCS) :
    countDescendants mproc p = .ok (descendants mproc p) := by
  have start : Searching mproc p { descendants := 0, stack := [p], visited := {p} } (fun i _ => i ∈ [p]) := by
    refine ⟨?_, List.nodup_singleton p, fun i hi => ?_, (Finset.card_singleton p).symm⟩
    · exact Explored.init.mono fun x _ y _ root => .inr (List.mem_singleton.2 root)
    · exact Finset.mem_singleton.2 (List.mem_singleton.1 hi)
  obtain ⟨visited, ended, reached⟩ := start.loop
  have pushed : ({ descendants := 0, stack := [], visited := ∅ } : Search NR_PROCS).push p =
      .ok { descendants := 0, stack := [p], visited := {p} } := if_pos (Nat.zero_lt_of_lt p.isLt)
  have others : descendants mproc p = (visited.erase p).card := by
    classical
    unfold descendants
    congr 1
    ext i
    rw [Finset.mem_filter, Finset.mem_erase, reached, Relation.reflTransGen_iff_eq_or_transGen]
    unfold Descendant
    constructor
    · rintro ⟨-, other, path⟩
      exact ⟨other, .inr path⟩
    · rintro ⟨other, same | path⟩
      · exact absurd same other
      · exact ⟨Finset.mem_univ i, other, path⟩
  unfold countDescendants
  rw [pushed, ok_bind, ended, others, Finset.card_erase_of_mem ((reached p).2 .refl)]

/-- The slots that `most_descendants` looks at. -/
def Eligible (mproc : Fin NR_PROCS → Mproc) (excludePid : Int) (i : Fin NR_PROCS) : Prop :=
  (mproc i).inUse ∧ (mproc i).mpPid ≠ excludePid ∧ (mproc i).mpPid ≠ 0

/-- The answer is the count and the pid of the slot `i`, the first among those of `l` that are eligible with the
greatest count. -/
structure Leads (mproc : Fin NR_PROCS → Mproc) (excludePid : Int) (l : List (Fin NR_PROCS)) (answer : Int × Int)
    (i : Fin NR_PROCS) : Prop where
  eligible : Eligible mproc excludePid i
  count : answer.1 = descendants mproc i
  who : answer.2 = (mproc i).mpPid
  most : ∀ j ∈ l, Eligible mproc excludePid j → descendants mproc j ≤ descendants mproc i
  first : ∀ j ∈ l, Eligible mproc excludePid j → j < i → descendants mproc j < descendants mproc i

/-- The best answer for the slots of `l`. -/
def Best (mproc : Fin NR_PROCS → Mproc) (excludePid : Int) (l : List (Fin NR_PROCS)) (answer : Int × Int) : Prop :=
  answer = (-1, -1) ∧ (∀ j ∈ l, ¬ Eligible mproc excludePid j) ∨ ∃ i ∈ l, Leads mproc excludePid l answer i

section Most

variable {excludePid : Int} {seen : List (Fin NR_PROCS)} {answer : Int × Int}

/-- A slot that is not eligible changes nothing. -/
theorem Best.skip (h : Best mproc excludePid seen answer) (other : ¬ Eligible mproc excludePid i) :
    Best mproc excludePid (seen ++ [i]) answer := by
  have old : ∀ j ∈ seen ++ [i], Eligible mproc excludePid j → j ∈ seen := by
    intro j hj eligible
    rcases List.mem_append.1 hj with hj | hj
    · exact hj
    · rw [List.mem_singleton.1 hj] at eligible
      exact absurd eligible other
  rcases h with ⟨rfl, none⟩ | ⟨k, hk, leads⟩
  · exact .inl ⟨rfl, fun j hj eligible => none j (old j hj eligible) eligible⟩
  · refine .inr ⟨k, List.mem_append_left _ hk, leads.eligible, leads.count, leads.who, fun j hj eligible => ?_,
      fun j hj eligible => ?_⟩
    · exact leads.most j (old j hj eligible) eligible
    · exact leads.first j (old j hj eligible) eligible

/-- A later slot with no greater count changes nothing. -/
theorem Best.keep (h : Best mproc excludePid seen answer) (later : ∀ j ∈ seen, j < i)
    (less : ¬ answer.1 < descendants mproc i) : Best mproc excludePid (seen ++ [i]) answer := by
  rcases h with ⟨rfl, -⟩ | ⟨k, hk, leads⟩
  · exact absurd (by show (-1 : Int) < _; omega) less
  · have count := leads.count
    refine .inr ⟨k, List.mem_append_left _ hk, leads.eligible, leads.count, leads.who, fun j hj eligible => ?_,
      fun j hj eligible before => ?_⟩
    · rcases List.mem_append.1 hj with hj | hj
      · exact leads.most j hj eligible
      · rw [List.mem_singleton.1 hj]
        omega
    · rcases List.mem_append.1 hj with hj | hj
      · exact leads.first j hj eligible before
      · rw [List.mem_singleton.1 hj] at before
        exact absurd before (lt_asymm (later k hk))

/-- A slot with a greater count is the new answer. -/
theorem Best.take (h : Best mproc excludePid seen answer) (eligible : Eligible mproc excludePid i)
    (greater : answer.1 < descendants mproc i) :
    Best mproc excludePid (seen ++ [i]) ((descendants mproc i : Int), (mproc i).mpPid) := by
  have less : ∀ j ∈ seen, Eligible mproc excludePid j → descendants mproc j < descendants mproc i := by
    intro j hj other
    rcases h with ⟨rfl, none⟩ | ⟨k, hk, leads⟩
    · exact absurd other (none j hj)
    · have most := leads.most j hj other
      have count := leads.count
      omega
  refine .inr ⟨i, List.mem_append_right _ List.mem_cons_self, eligible, rfl, rfl, fun j hj other => ?_,
    fun j hj other before => ?_⟩
  · rcases List.mem_append.1 hj with hj | hj
    · exact le_of_lt (less j hj other)
    · rw [List.mem_singleton.1 hj]
  · rcases List.mem_append.1 hj with hj | hj
    · exact less j hj other
    · rw [List.mem_singleton.1 hj] at before
      exact absurd before (lt_irrefl i)

/-- **The loop of `most_descendants`** goes over the slots in order. -/
theorem most_best (h : Best mproc excludePid seen answer) (order : (seen ++ l).Pairwise (· < ·)) :
    ∃ answer', most mproc excludePid l answer = .ok answer' ∧ Best mproc excludePid (seen ++ l) answer' := by
  induction l generalizing seen answer with
  | nil =>
    rw [List.append_nil]
    exact ⟨answer, rfl, h⟩
  | cons i l ih =>
    have later : ∀ j ∈ seen, j < i := fun j hj => (List.pairwise_append.1 order).2.2 j hj i List.mem_cons_self
    have split : seen ++ i :: l = seen ++ [i] ++ l := by simp
    rw [split] at order ⊢
    rw [most]
    split
    case isTrue eligible =>
      rw [countDescendants_eq, ok_bind]
      by_cases greater : answer.1 < descendants mproc i
      · rw [if_pos greater]
        exact ih (h.take eligible greater) order
      · rw [if_neg greater]
        exact ih (h.keep later greater) order
    case isFalse other => exact ih (h.skip other) order

end Most

/-- The answer of the system call: what `Leads` says of the first of the best slots, or -1 and -1 exactly when there
is no slot to look at. -/
structure ExactAnswer (mproc : Fin NR_PROCS → Mproc) (excludePid : Int) (answer : Int × Int) : Prop where
  best : (∃ i, Eligible mproc excludePid i) → ∃ i, Leads mproc excludePid (List.finRange NR_PROCS) answer i
  none : answer = (-1, -1) ↔ ¬ ∃ i, Eligible mproc excludePid i

theorem Best.exact {excludePid : Int} {answer : Int × Int}
    (h : Best mproc excludePid (List.finRange NR_PROCS) answer) : ExactAnswer mproc excludePid answer := by
  rcases h with ⟨rfl, none⟩ | ⟨i, -, leads⟩
  · have nobody : ¬ ∃ i, Eligible mproc excludePid i := fun ⟨i, eligible⟩ => none i (List.mem_finRange i) eligible
    exact ⟨fun some => absurd some nobody, fun _ => nobody, fun _ => rfl⟩
  · refine ⟨fun _ => ⟨i, leads⟩, fun absent => ?_, fun none => absurd ⟨i, leads.eligible⟩ none⟩
    have count := leads.count
    rw [absent] at count
    dsimp only at count
    omega

/-- **`who_most_descendants` is exact on every process table**, for every number of slots. -/
theorem who_most_descendants_exact (NR_PROCS : Nat) (mproc : Fin NR_PROCS → Mproc) (excludePid : Int) :
    (∀ p, countDescendants mproc p = .ok (descendants mproc p)) ∧
      ∃ answer, doWhoMostDescendants mproc excludePid = .ok answer ∧ ExactAnswer mproc excludePid answer := by
  refine ⟨countDescendants_eq mproc, ?_⟩
  have start : Best mproc excludePid [] (-1, -1) := .inl ⟨rfl, nofun⟩
  obtain ⟨answer, done, best⟩ := most_best start (List.pairwise_lt_finRange NR_PROCS)
  exact ⟨answer, done, best.exact⟩

end SoiExercises.Descendants
