import SoiExercises.Alloc.Canonical

/-!
# The worst fit takes the worst fit

In a sorted list the holes of ordinary memory are those that the search looks at, and it keeps the first of
the biggest ones with the hole before it. The bite takes the front of that hole and leaves the others alone.
-/

namespace SoiExercises.Alloc

open SoiExercises.Lib

namespace Mem

variable {cfg : Config} {s t : Mem cfg} {used free l : List Nat} {x y clicks : Nat}

/-- The hole lies below `swap_base`. -/
def Below (s : Mem cfg) (x : Nat) : Prop := (s.span x).base < s.swapBase

theorem ordinary_eq_filter (bases : (l.map s.span).Pairwise fun g h => g.base < h.base) :
    s.ordinary l = l.filter fun x => (s.hole x).base < s.swapBase := by
  induction l with
  | nil => rfl
  | cons z l ih =>
    rw [List.map_cons, List.pairwise_cons] at bases
    obtain ⟨first, rest⟩ := bases
    by_cases low : (s.span z).base < s.swapBase
    · rw [ordinary_cons_of_low low, ih rest, List.filter_cons_of_pos]
      exact decide_eq_true low
    · rw [ordinary_cons_of_high low, Eq.comm, List.filter_eq_nil_iff]
      intro y member
      rw [decide_eq_true_eq]
      rcases List.mem_cons.1 member with rfl | member
      · exact low
      · have above := first (s.span y) (List.mem_map_of_mem member)
        exact fun below => low (lt_trans above below)

theorem mem_ordinary (bases : (l.map s.span).Pairwise fun g h => g.base < h.base) :
    x ∈ s.ordinary l ↔ x ∈ l ∧ s.Below x := by
  rw [ordinary_eq_filter bases, List.mem_filter, decide_eq_true_eq]
  rfl

/-- `t` is `s` after `clicks` have been taken from the front of the hole `x`, the lowest of the biggest ones
below `swap_base`. -/
structure TakesWorst (s : Mem cfg) (used free : List Nat) (clicks x : Nat) (t : Mem cfg) : Prop where
  mem : x ∈ used
  below : s.Below x
  fits : clicks ≤ (s.span x).len
  biggest : ∀ y ∈ used, s.Below y → (s.span y).len ≤ (s.span x).len
  lowest : ∀ y ∈ used, s.Below y → (s.span y).len = (s.span x).len → (s.span x).base ≤ (s.span y).base
  used_up : (s.span x).len = clicks → HoleList t (used.erase x) (x :: free)
  shrunk : (s.span x).len ≠ clicks → HoleList t used free ∧
    t.span x = ⟨(s.span x).base + clicks, (s.span x).len - clicks⟩
  others : ∀ y ∈ used, y ≠ x → t.span y = s.span y
  frame : s.Frame t

/-- What the search finds in a sorted list that begins below `swap_base`. -/
theorem findBiggest_lowest (h : HoleList s used free) (asc : Ascending (used.map s.span)) (low : s.HeadOrdinary) :
    ∃ found l m r, s.findBiggest (cfg.NR_HOLES + 1) none none s.holeHead s.holeHead = .ok (found, some m) ∧
      used = l ++ m :: r ∧ (l ≠ [] → found = l.getLast?) ∧ s.Below m ∧
      (∀ y ∈ used, s.Below y → (s.span y).len ≤ (s.span m).len) ∧ ∀ y ∈ l, (s.span y).len < (s.span m).len := by
  have enough : used.length < cfg.NR_HOLES + 1 := Nat.lt_succ_of_le h.length_le
  obtain ⟨head, hhead, low⟩ := low
  obtain ⟨found, m, done, -, most, place⟩ := findBiggest_spec none none head h.holes enough
  rw [← hhead] at done
  have biggest : ∀ y ∈ used, s.Below y → (s.span y).len ≤ (s.span m).len := fun y member below =>
    most y ((mem_ordinary asc.bases).2 ⟨member, below⟩)
  rcases place with ⟨rfl, -⟩ | ⟨l, r, split, inside, rfl, earlier⟩
  · have first := h.holes.head?
    cases used with
    | nil => rw [hhead] at first; cases first
    | cons z rest =>
      rw [hhead] at first
      obtain rfl : m = z := Option.some.inj first
      exact ⟨found, [], m, rest, done, rfl, fun ne => absurd rfl ne, low, biggest, nofun⟩
  · refine ⟨_, l, m, r, done, split, fun _ => by simp, ((mem_ordinary asc.bases).1 inside).2, biggest, ?_⟩
    exact fun y member => earlier y (List.mem_cons_of_mem head member)

/-- **One pass of the worst fit** takes the worst fit, or finds that no hole below `swap_base` is big enough. -/
theorem pass_worst_takes (h : HoleList s used free) (asc : Ascending (used.map s.span)) (low : s.HeadOrdinary) :
    (∃ x t, s.pass clicks .worst = .ok (some (t, (s.span x).base)) ∧ TakesWorst s used free clicks x t) ∨
      s.pass clicks .worst = .ok none ∧ ∀ y ∈ used, s.Below y → (s.span y).len < clicks := by
  obtain ⟨found, l, m, r, done, split, before, below, biggest, earlier⟩ := findBiggest_lowest h asc low
  unfold pass
  rw [done, ok_bind]
  dsimp only
  by_cases fits : clicks ≤ (s.span m).len
  · left
    rw [if_pos (show clicks ≤ (s.hole m).len from fits)]
    subst split
    obtain ⟨t, bitten, spans, shorter, shrunk⟩ := h.bite_slots found before fits
    have erased : (l ++ m :: r).erase m = l ++ r := by
      rw [List.erase_append_right _ h.once.1, List.erase_cons_head]
    refine ⟨m, t, ?_, ?_⟩
    · rw [bitten]
      rfl
    · refine ⟨by simp, below, fits, biggest, fun y member _ same => ?_, ?_, fun more => ⟨shrunk more, ?_⟩,
        fun y _ other => ?_, bite_frame _ bitten⟩
      · rcases List.mem_append.1 member with left | right
        · have := earlier y left
          omega
        · rcases List.mem_cons.1 right with rfl | right
          · exact le_refl _
          · have bases := asc.bases
            rw [List.map_append, List.map_cons] at bases
            have ascending := (List.pairwise_cons.1 (List.pairwise_append.1 bases).2.1).1
            exact le_of_lt (ascending (s.span y) (List.mem_map_of_mem right))
      · rw [erased]
        exact shorter
      · rw [spans, Function.update_self]
      · rw [spans, Function.update_of_ne other]
  · right
    rw [if_neg (show ¬ clicks ≤ (s.hole m).len from fits)]
    refine ⟨rfl, fun y member low => ?_⟩
    have := biggest y member low
    omega

end Mem

variable {cfg : Config} {s : Mem cfg} {used free : List Nat} {clicks : Nat}

/-- A pass of the worst fit serves a request if and only if a hole below `swap_base` is big enough, and then
from the worst fit; if it does not serve it, `swap_out` is next. -/
structure WorstFit (s : Mem cfg) (used free : List Nat) (clicks : Nat) : Prop where
  serves : (∃ r, s.pass clicks .worst = .ok (some r)) ↔ ∃ y ∈ used, s.Below y ∧ clicks ≤ (s.span y).len
  otherwise : (∀ y ∈ used, s.Below y → (s.span y).len < clicks) → s.pass clicks .worst = .ok none
  takes : ∀ t base, s.pass clicks .worst = .ok (some (t, base)) →
    (⟨s, .worst⟩ : Allocator cfg).allocMem clicks = .ok (⟨t, .worst⟩, some base) ∧
      ∃ x, base = (s.span x).base ∧ s.TakesWorst used free clicks x t

/-- **The worst fit takes the worst fit**, on every sorted hole list that begins below `swap_base`. -/
theorem worst_fit_takes (h : s.HoleList used free) (asc : Ascending (used.map s.span)) (low : s.HeadOrdinary) :
    WorstFit s used free clicks := by
  rcases Mem.pass_worst_takes h asc low with ⟨x, t, done, takes⟩ | ⟨none, small⟩
  · constructor
    · exact ⟨fun _ => ⟨x, takes.mem, takes.below, takes.fits⟩, fun _ => ⟨_, done⟩⟩
    · intro small
      have := small x takes.mem takes.below
      have := takes.fits
      omega
    · intro t' base served
      rw [done] at served
      cases served
      refine ⟨?_, x, rfl, takes⟩
      unfold Allocator.allocMem
      rw [Mem.allocLoop_serve done]
      rfl
  · constructor
    · constructor
      · rintro ⟨r, served⟩
        rw [none] at served
        cases served
      · rintro ⟨y, member, below, fits⟩
        have := small y member below
        omega
    · exact fun _ => none
    · intro t base served
      rw [none] at served
      cases served

/-- Two holes of five clicks between a smaller one and one of the swap area, `swap_base` being 32. -/
def tied : Mem small where
  hole := fun i => match i with
    | 0 => ⟨some 1, 4, 2⟩
    | 1 => ⟨some 2, 8, 5⟩
    | 2 => ⟨some 3, 16, 5⟩
    | _ => ⟨none, 32, 9⟩
  holeHead := some 0
  freeSlots := none
  swapBase := 32
  mproc := fun _ => ⟨∅, ⟨0, 0, 0⟩, ⟨0, 0, 0⟩⟩
  outswap := ⟨1, small_user⟩

theorem tied_table : tied.HoleList [0, 1, 2, 3] [] := ⟨⟨rfl, rfl, rfl, rfl, rfl⟩, rfl, by decide, by decide⟩

theorem tied_ascending : Ascending ([0, 1, 2, 3].map tied.span) where
  nonempty := by decide
  order := by
    show List.Pairwise (fun g h : Span => g.base + g.len ≤ h.base) _
    decide

theorem worst_fit_takes_tied : WorstFit tied [0, 1, 2, 3] [] 5 :=
  worst_fit_takes tied_table tied_ascending ⟨0, rfl, by decide⟩

end SoiExercises.Alloc
