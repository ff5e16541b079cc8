import Mathlib.Data.List.TakeWhile
import Mathlib.Logic.Relation
import SoiExercises.Alloc.Canonical

/-!
# Worst fit against first fit

The two loops of `alloc_mem` run in lock-step: `Mem.pass_first` and `Mem.pass_worst` say that a pass of
either serves the request or finds that no ordinary hole is big enough, and then both call `swap_out`.
The exception is the first candidate of the worst fit, the head of the list: it is used without a look at
whether it exists and is ordinary memory, at first and again after each `swap_out`. `worst_fit_agrees` is
the exact condition. While every process that is not on swap lies below `swap_base`, what `swap_out`
releases is ordinary memory, and only the first look counts (`Mem.Resident.headsSound_iff`).
-/

namespace SoiExercises.Alloc

open SoiExercises.Lib

namespace Mem

variable {cfg : Config} {s t : Mem cfg} {used free l : List Nat} {clicks : Nat}

/-- The memory of a process that is not on swap is ordinary memory. -/
def Resident (s : Mem cfg) : Prop :=
  ∀ rmp : UserSlot cfg, .onswap ∉ (s.mproc rmp).flags → 0 < (s.mproc rmp).size →
    (s.mproc rmp).segD.memPhys < s.swapBase

/-- The table holds a list of non-empty holes. -/
def WellFormed (s : Mem cfg) : Prop :=
  ∃ used free, HoleList s used free ∧ ∀ h ∈ used.map s.span, 0 < h.len

/-- The first candidate of the worst fit does no harm: it is a hole of ordinary memory, or it is a hole
that is too small for the request. -/
def SoundHead (s : Mem cfg) (clicks : Nat) : Prop :=
  ∃ head, s.holeHead = some head ∧ ((s.span head).base < s.swapBase ∨ (s.span head).len < clicks)

/-- None of the holes in front of the swap area has `clicks` clicks. -/
def Short (s : Mem cfg) (clicks : Nat) : Prop :=
  ∃ holes, s.Lists holes ∧ ∀ h ∈ holes.takeWhile (fun h => h.base < s.swapBase), h.len < clicks

/-- The list is too short for the request, and `swap_out` releases memory for another look. -/
def Retry (s : Mem cfg) (clicks : Nat) (t : Mem cfg) : Prop := s.Short clicks ∧ s.swapOut = .ok (t, true)

/-- The first candidate does no harm whenever the worst fit looks at the list: the given one, and the one
that each `swap_out` leaves behind. -/
def HeadsSound (s : Mem cfg) (clicks : Nat) : Prop :=
  ∀ t, Relation.ReflTransGen (fun s t => s.Retry clicks t) s t → t.SoundHead clicks

theorem HoleList.short_iff (h : HoleList s used free) :
    s.Short clicks ↔ ∀ x ∈ s.ordinary used, (s.span x).len < clicks := by
  have front : (used.map s.span).takeWhile (fun h => h.base < s.swapBase) = (s.ordinary used).map s.span := by
    rw [List.takeWhile_map]
    rfl
  constructor
  · rintro ⟨holes, lists, small⟩ x hx
    rw [lists.unique ⟨used, h.holes, rfl⟩, front] at small
    exact small _ (List.mem_map_of_mem hx)
  · intro small
    refine ⟨used.map s.span, ⟨used, h.holes, rfl⟩, ?_⟩
    rw [front]
    intro g hg
    obtain ⟨x, hx, rfl⟩ := List.mem_map.1 hg
    exact small x hx

/-- The head of the hole list, as a span. -/
theorem HoleList.soundHead_iff (h : HoleList s used free) : s.SoundHead clicks ↔
    ∃ g ∈ (used.map s.span).head?, g.base < s.swapBase ∨ g.len < clicks := by
  have first := h.holes.head?
  cases used with
  | nil =>
    constructor
    · rintro ⟨head, some, -⟩
      rw [some] at first
      cases first
    · rintro ⟨g, none, -⟩
      cases none
  | cons x used =>
    constructor
    · rintro ⟨head, some, sound⟩
      rw [some] at first
      obtain rfl : head = x := Option.some.inj first
      exact ⟨s.span head, rfl, sound⟩
    · rintro ⟨g, same, sound⟩
      obtain rfl : s.span x = g := Option.some.inj same
      exact ⟨x, first, sound⟩

theorem findSwap_spec {size fuel : Nat} {p : Option Nat} (prev : Option Nat) (listed : Listed s.next p l)
    (enough : l.length < fuel) :
    (∃ l₁ x l₂, l = l₁ ++ x :: l₂ ∧ s.swapBase ≤ (s.span x).base ∧ size ≤ (s.span x).len ∧
      s.findSwap size fuel prev p = .ok (some (l₁.getLast?.or prev, x))) ∨
    s.findSwap size fuel prev p = .ok none := by
  induction l generalizing p prev fuel with
  | nil =>
    obtain ⟨fuel, rfl⟩ : ∃ n, fuel = n + 1 := ⟨fuel - 1, by simp at enough; omega⟩
    obtain rfl := seg_nil.1 listed
    exact .inr rfl
  | cons z l ih =>
    obtain ⟨fuel, rfl⟩ : ∃ n, fuel = n + 1 := ⟨fuel - 1, by simp at enough; omega⟩
    obtain ⟨rfl, rest⟩ := seg_cons.1 listed
    rw [findSwap]
    by_cases place : s.swapBase ≤ (s.span z).base ∧ size ≤ (s.span z).len
    · left
      refine ⟨[], z, l, rfl, place.1, place.2, ?_⟩
      rw [if_pos (show s.swapBase ≤ (s.hole z).base ∧ size ≤ (s.hole z).len from place)]
      rfl
    · rw [if_neg (show ¬ (s.swapBase ≤ (s.hole z).base ∧ size ≤ (s.hole z).len) from place)]
      rcases ih (some z) rest (by simpa using enough) with ⟨l₁, x, l₂, split, high, fits, found⟩ | none
      · left
        refine ⟨z :: l₁, x, l₂, by rw [split]; rfl, high, fits, ?_⟩
        rw [getLast?_cons_or]
        exact found
      · exact .inr none

theorem swapTo_swapBase {rmp : UserSlot cfg} {prev : Option Nat} {hp : Nat} :
    Completes (fun t => t.swapBase = s.swapBase) (s.swapTo rmp prev hp) := by
  unfold swapTo
  dsimp only
  refine .bind (Q := fun r => Frame s r.1) bite_frame fun ⟨s₁, newBase⟩ frame₁ => ?_
  exact .bind freeMem_frame fun s₂ frame₂ => .pure (frame₂.swapBase.trans frame₁.swapBase)

/-- Swapping a process out leaves only ordinary memory to the others. -/
theorem Resident.swapTo {rmp : UserSlot cfg} {prev : Option Nat} {hp : Nat} (resident : s.Resident)
    (done : s.swapTo rmp prev hp = .ok t) : t.Resident := by
  obtain ⟨swapped, others⟩ := swapTo_mproc t done
  intro other out pos
  have ne : other.1 ≠ rmp.1 := fun same => out (same ▸ swapped)
  rw [others other ne] at out pos ⊢
  rw [swapTo_swapBase t done]
  exact resident other out pos

/-- The hole list after a process has been moved to the hole `x`: a bite, and the return of the memory it
had. -/
theorem swapTo_table {rmp : UserSlot cfg} {l r : List Nat} {x : Nat} {prev : Option Nat}
    (h : HoleList s (l ++ x :: r) free) (hprev : l ≠ [] → prev = l.getLast?)
    (fits : (s.mproc rmp).size ≤ (s.span x).len) :
    (∃ text, s.swapTo rmp prev x = .error (.panic text)) ∨
      ∃ t used' free', s.swapTo rmp prev x = .ok t ∧ HoleList t used' free' ∧
        used'.map t.span =
          let bitten := l.map s.span ++ ((s.span x).shrink (s.mproc rmp).size ++ r.map s.span)
          if (s.mproc rmp).size = 0 then bitten
          else insertSpan ⟨(s.mproc rmp).segD.memPhys, (s.mproc rmp).size⟩ bitten := by
  obtain ⟨s₁, used₁, free₁, bitten, table₁, -, spans₁⟩ := h.bite prev hprev fits
  unfold swapTo
  dsimp only
  rw [bitten, ok_bind]
  dsimp only
  by_cases none : (s.mproc rmp).size = 0
  · right
    rw [freeMem, if_pos none, ok_bind, if_pos none]
    refine ⟨_, used₁, free₁, rfl, ⟨table₁.holes, table₁.slots, table₁.nodup, table₁.inTable⟩, ?_⟩
    exact spans₁
  · rw [if_neg none]
    cases free₁ with
    | nil =>
      left
      have full : s₁.freeSlots = .none := seg_nil.1 table₁.slots
      rw [freeMem, if_neg none]
      dsimp only
      rw [full]
      exact ⟨_, rfl⟩
    | cons new free₁ =>
      right
      generalize hmoved : ({ s₁ with mproc := _ } : Mem cfg) = moved
      have table : HoleList moved used₁ (new :: free₁) := by
        subst hmoved
        exact ⟨table₁.holes, table₁.slots, table₁.nodup, table₁.inTable⟩
      have spans : used₁.map moved.span = used₁.map s₁.span := by
        subst hmoved
        rfl
      obtain ⟨s₂, used₂, free₂, freed, table₂, -, spans₂⟩ :=
        table.freeMem (b := ⟨(s.mproc rmp).segD.memPhys, (s.mproc rmp).size⟩) (Nat.pos_of_ne_zero none)
      rw [freed, ok_bind]
      refine ⟨_, used₂, free₂, rfl, ⟨table₂.holes, table₂.slots, table₂.nodup, table₂.inTable⟩, ?_⟩
      rw [← spans₁, ← spans]
      exact spans₂

/-- What the caller of `swap_out` finds after a process has been swapped out. If the processes in memory
are in ordinary memory, the released hole is the head of the list or comes behind an ordinary one. -/
structure Released (s t : Mem cfg) : Prop where
  wellFormed : t.WellFormed
  swapBase : t.swapBase = s.swapBase
  resident : s.Resident → t.Resident
  sound : s.Resident → ∀ clicks, s.SoundHead clicks → t.SoundHead clicks

/-- A process moves to the swap area. One without memory leaves the list as it was. -/
theorem swapTo_spec {rmp : UserSlot cfg} {l r : List Nat} {x : Nat} {prev : Option Nat}
    (h : HoleList s (l ++ x :: r) free) (nonempty : ∀ g ∈ (l ++ x :: r).map s.span, 0 < g.len)
    (inside : .onswap ∉ (s.mproc rmp).flags) (hprev : l ≠ [] → prev = l.getLast?)
    (fits : (s.mproc rmp).size ≤ (s.span x).len) :
    (∃ text, s.swapTo rmp prev x = .error (.panic text)) ∨
      ∃ t, s.swapTo rmp prev x = .ok t ∧ Released s t := by
  rcases swapTo_table h hprev fits with fault | ⟨t, used', free', done, table, spans⟩
  · exact .inl fault
  · right
    have base := swapTo_swapBase t done
    have list : (l ++ x :: r).map s.span = l.map s.span ++ s.span x :: r.map s.span := by simp
    rw [list] at nonempty
    have bitten : ∀ g ∈ l.map s.span ++ ((s.span x).shrink (s.mproc rmp).size ++ r.map s.span), 0 < g.len := by
      intro g hg
      rcases List.mem_append.1 hg with left | hg
      · exact nonempty g (List.mem_append_left _ left)
      · rcases List.mem_append.1 hg with rest | right
        · exact shrink_nonempty fits g rest
        · exact nonempty g (List.mem_append_right _ (List.mem_cons_of_mem _ right))
    refine ⟨t, done, ⟨used', free', table, ?_⟩, base, fun resident => resident.swapTo done, ?_⟩
    · rw [spans]
      dsimp only
      split
      · exact bitten
      · exact insertSpan_nonempty (by dsimp only; omega) bitten
    · intro resident clicks sound
      rw [table.soundHead_iff, spans, base]
      dsimp only
      split
      · rename_i none
        have pos := nonempty (s.span x) (by simp)
        have whole : (s.span x).shrink 0 = [s.span x] := if_neg (by omega)
        rw [none, whole]
        rw [h.soundHead_iff, list] at sound
        exact sound
      · obtain ⟨g, rest, same, low⟩ := insertSpan_head
          (b := ⟨(s.mproc rmp).segD.memPhys, (s.mproc rmp).size⟩)
          (l := l.map s.span ++ ((s.span x).shrink (s.mproc rmp).size ++ r.map s.span))
        rw [same]
        have := resident rmp inside (by omega)
        exact ⟨g, rfl, .inl (lt_of_le_of_lt low this)⟩

/-- **`swap_out`** panics, finds nothing, or leaves a table for the next pass. -/
theorem swapOut_spec (wf : s.WellFormed) :
    (∃ text, s.swapOut = .error (.panic text)) ∨ s.swapOut = .ok (s, false) ∨
      ∃ t, s.swapOut = .ok (t, true) ∧ Released s t := by
  obtain ⟨used, free, h, nonempty⟩ := wf
  unfold swapOut
  generalize s.outswap = rmp
  induction rmp using swapOutAfter.induct s with
  | case1 rmp ih =>
    rw [swapOutAfter]
    have place : (∃ l x r, used = l ++ x :: r ∧ .onswap ∉ (s.mproc rmp.next).flags ∧
        (s.mproc rmp.next).size ≤ (s.span x).len ∧ s.swapPlace rmp.next = .ok (some (l.getLast?.or none, x))) ∨
        s.swapPlace rmp.next = .ok none := by
      unfold swapPlace
      split
      · rename_i candidate
        rcases findSwap_spec none h.holes (Nat.lt_succ_of_le h.length_le) with
          ⟨l, x, r, split, -, fits, found⟩ | none
        · exact .inl ⟨l, x, r, split, candidate_inMemory candidate, fits, found⟩
        · exact .inr none
      · exact .inr rfl
    rcases place with ⟨l, x, r, rfl, inside, fits, found⟩ | none
    · rw [found, ok_bind]
      dsimp only
      have link : l ≠ [] → l.getLast?.or none = l.getLast? := by simp
      rcases swapTo_spec h nonempty inside link fits with ⟨text, fault⟩ | ⟨t, done, released⟩
      · left
        rw [fault]
        exact ⟨text, rfl⟩
      · right
        right
        rw [done]
        exact ⟨t, rfl, released⟩
    · rw [none, ok_bind]
      dsimp only
      split
      · rename_i more
        exact ih more
      · exact .inr (.inl rfl)

theorem WellFormed.released (wf : s.WellFormed) (swapped : s.swapOut = .ok (t, true)) : Released s t := by
  rcases swapOut_spec wf with ⟨text, fault⟩ | none | ⟨u, done, released⟩
  · rw [swapped] at fault
    cases fault
  · rw [swapped] at none
    cases none
  · rw [swapped] at done
    cases done
    exact released

/-- **If the processes in memory are in ordinary memory**, a head that is sound at the first look stays
sound. -/
theorem Resident.headsSound_iff (resident : s.Resident) (wf : s.WellFormed) :
    s.HeadsSound clicks ↔ s.SoundHead clicks := by
  constructor
  · exact fun heads => heads s .refl
  · intro sound t path
    have kept : t.WellFormed ∧ t.Resident ∧ t.SoundHead clicks := by
      induction path with
      | refl => exact ⟨wf, resident, sound⟩
      | tail _ retry ih =>
        obtain ⟨wf, resident, sound⟩ := ih
        have released := wf.released retry.2
        exact ⟨released.wellFormed, released.resident resident, released.sound resident clicks sound⟩
    exact kept.2.2

theorem swapOut_swapBase {r : Mem cfg × Bool} (done : s.swapOut = .ok r) : r.1.swapBase = s.swapBase := by
  have kept (rmp : UserSlot cfg) : Completes (fun r => r.1.swapBase = s.swapBase) (s.swapOutAfter rmp) := by
    induction rmp using swapOutAfter.induct s with
    | case1 rmp ih =>
      rw [swapOutAfter]
      refine .bind_any fun found => ?_
      cases found with
      | none =>
        dsimp only
        split
        · rename_i more
          exact ih more
        · exact .pure rfl
      | some found => exact .bind swapTo_swapBase fun t same => .pure same
  exact kept s.outswap r done

/-- Some processes have been swapped out. -/
def Swapped (s t : Mem cfg) : Prop := Relation.ReflTransGen (fun s t => s.swapOut = .ok (t, true)) s t

theorem Swapped.swapBase (h : Swapped s t) : t.swapBase = s.swapBase := by
  induction h with
  | refl => rfl
  | tail _ last ih => exact (swapOut_swapBase last).trans ih

/-- What the worst fit makes of a head outside ordinary memory: it is the only candidate. -/
theorem pass_worst_high {head : Nat} (h : HoleList s (head :: used) free)
    (high : ¬ (s.span head).base < s.swapBase) :
    s.pass clicks .worst =
      if clicks ≤ (s.span head).len then s.bite none head clicks >>= fun r => .ok (some r) else .ok none := by
  have first : s.holeHead = some head := (seg_cons.1 h.holes).1
  unfold pass
  rw [first, findBiggest, if_neg (show ¬ (s.hole head).base < s.swapBase from high)]
  rfl

/-- With a sound head the worst fit serves as the first fit does. -/
theorem pass_worst_sound (h : HoleList s used free) (sound : s.SoundHead clicks) :
    s.Serves used clicks (s.pass clicks .worst) := by
  obtain ⟨head, first, sound⟩ := sound
  by_cases low : (s.span head).base < s.swapBase
  · exact pass_worst h ⟨head, first, low⟩
  · -- the first fit sees no ordinary hole, and the worst fit a hole that is too small
    right
    cases used with
    | nil =>
      have none : s.holeHead = none := seg_nil.1 h.holes
      rw [none] at first
      cases first
    | cons x used =>
      obtain rfl : x = head := Option.some.inj ((seg_cons.1 h.holes).1.symm.trans first)
      constructor
      · rw [pass_worst_high h low, if_neg (by omega)]
      · rw [ordinary_cons_of_high low]
        exact fun y hy => absurd hy List.not_mem_nil

/-- A pass returns the start of a hole of ordinary memory. -/
def Low (s : Mem cfg) (base : Nat) : Prop :=
  ∃ holes, s.Lists holes ∧ ∃ h ∈ holes, h.base = base ∧ h.base < s.swapBase

/-- Two passes that are not misled serve the same requests, or the list is too short for both. -/
theorem Serves.agree {r r' : Result (Option (Mem cfg × Nat))} (h : HoleList s used free)
    (served : s.Serves used clicks r) (served' : s.Serves used clicks r') :
    (∃ t t' base base', r = .ok (some (t, base)) ∧ r' = .ok (some (t', base')) ∧ s.Low base) ∨
      (r = .ok none ∧ r' = .ok none ∧ s.Short clicks) := by
  rcases served with ⟨l, x, rest, t, used₁, free₁, split, low, fits, done, -⟩ | ⟨done, small⟩
  · rcases served' with ⟨l', x', rest', t', used₂, free₂, split', low', fits', done', -⟩ | ⟨done', small⟩
    · left
      refine ⟨t, t', _, _, done, done', used.map s.span, ⟨used, h.holes, rfl⟩, s.span x, ?_, rfl, ?_⟩
      · rw [split]
        simp
      · simpa using List.mem_takeWhile_imp low
    · have := small x low
      omega
  · rcases served' with ⟨l', x', rest', t', used₂, free₂, split', low', fits', done', -⟩ | ⟨done', -⟩
    · have := small x' low'
      omega
    · exact .inr ⟨done, done', h.short_iff.2 small⟩

/-- How the two loops end: both serve, both return `NO_MEM`, or both panic. -/
def LockStep (s : Mem cfg) (clicks : Nat) : Prop :=
  (∃ u t t' base base', Swapped s u ∧ u.Low base ∧ allocLoop .worst clicks s = .ok (t, some base) ∧
    allocLoop .first clicks s = .ok (t', some base')) ∨
  (∃ t, allocLoop .worst clicks s = .ok (t, none) ∧ allocLoop .first clicks s = .ok (t, none)) ∨
  ∃ text, allocLoop .worst clicks s = .error (.panic text) ∧ allocLoop .first clicks s = .error (.panic text)

/-- **The two loops run in lock-step** while the heads are sound. Each round swaps a process out. -/
theorem lock_step (wf : s.WellFormed) (heads : s.HeadsSound clicks) : s.LockStep clicks := by
  induction hn : s.inMemory.card using Nat.strong_induction_on generalizing s with
  | h n ih =>
    obtain ⟨used, free, h, -⟩ := id wf
    rcases (pass_worst_sound h (heads s .refl)).agree h (pass_first h) with
      ⟨t, t', base, base', worst, first, low⟩ | ⟨worst, first, short⟩
    · exact .inl ⟨s, t, t', base, base', .refl, low, allocLoop_serve worst, allocLoop_serve first⟩
    · unfold LockStep
      rw [allocLoop_swap worst, allocLoop_swap first]
      rcases swapOut_spec wf with ⟨text, fault⟩ | none | ⟨t, swapped, released⟩
      · right
        right
        rw [fault]
        exact ⟨text, rfl, rfl⟩
      · right
        left
        rw [none]
        exact ⟨s, rfl, rfl⟩
      · have less : t.inMemory.card < n := hn ▸ swapOut_inMemory swapped
        have later : t.HeadsSound clicks := fun u path => heads u (path.head ⟨short, swapped⟩)
        rw [swapped]
        rcases ih _ less released.wellFormed later rfl with
          ⟨u, v, v', base, base', steps, low, worst, first⟩ | both | both
        · exact .inl ⟨u, v, v', base, base', .head swapped steps, low, worst, first⟩
        · exact .inr (.inl both)
        · exact .inr (.inr both)

end Mem

/-- `alloc_mem` under an algorithm. -/
def Mem.allocMem {cfg : Config} (s : Mem cfg) (algorithm : Algorithm) (clicks : Nat) :
    Result (Allocator cfg × Option Nat) := (⟨s, algorithm⟩ : Allocator cfg).allocMem clicks

/-- The two algorithms agree on feasibility, and the worst fit hands out ordinary memory only. -/
structure Agrees {cfg : Config} (s : Mem cfg) (clicks : Nat) : Prop where
  exists_hole : s.allocMem .worst clicks ≠ .error .nilHole
  noMem : (∃ a, s.allocMem .worst clicks = .ok (a, none)) ↔ ∃ a, s.allocMem .first clicks = .ok (a, none)
  ordinary : ∀ a base, s.allocMem .worst clicks = .ok (a, some base) → ∃ t, s.Swapped t ∧ t.Low base

variable {cfg : Config} {s t : Mem cfg} {clicks : Nat} {algorithm : Algorithm}

theorem allocMem_ok {result : Option Nat} (looped : Mem.allocLoop algorithm clicks s = .ok (t, result)) :
    s.allocMem algorithm clicks = .ok (⟨t, algorithm⟩, result) := by
  unfold Mem.allocMem Allocator.allocMem
  rw [looped]
  rfl

theorem allocMem_error {fault : Fault} (looped : Mem.allocLoop algorithm clicks s = .error fault) :
    s.allocMem algorithm clicks = .error fault := by
  unfold Mem.allocMem Allocator.allocMem
  rw [looped]
  rfl

theorem agrees_of_headsSound (wf : s.WellFormed) (heads : s.HeadsSound clicks) : Agrees s clicks := by
  rcases Mem.lock_step wf heads with
    ⟨u, t, t', base, base', swapped, low, worst, first⟩ | ⟨t, worst, first⟩ | ⟨text, worst, first⟩
  · constructor
    · simp [allocMem_ok worst]
    · simp [allocMem_ok worst, allocMem_ok first]
    · intro a b served
      rw [allocMem_ok worst] at served
      cases served
      exact ⟨u, swapped, low⟩
  · constructor
    · simp [allocMem_ok worst]
    · simp [allocMem_ok worst, allocMem_ok first]
    · intro a b served
      rw [allocMem_ok worst] at served
      cases served
  · constructor
    · simp [allocMem_error worst]
    · simp [allocMem_error worst, allocMem_error first]
    · intro a b served
      rw [allocMem_error worst] at served
      cases served

/-- Without a hole the worst fit follows `NIL_HOLE`. -/
theorem allocMem_worst_nil (none : s.holeHead = none) : s.allocMem .worst clicks = .error .nilHole := by
  apply allocMem_error
  apply Mem.allocLoop_fault
  unfold Mem.pass
  rw [none]
  rfl

/-- A head outside ordinary memory that is big enough is handed out. -/
theorem allocMem_worst_high {used free : List Nat} {x : Nat} (h : s.HoleList (x :: used) free)
    (high : ¬ (s.span x).base < s.swapBase) (big : clicks ≤ (s.span x).len) :
    ∃ a, s.allocMem .worst clicks = .ok (a, some (s.span x).base) := by
  obtain ⟨t, used', free', bitten, -⟩ := h.bite (l := []) none (fun ne => absurd rfl ne) big
  refine ⟨⟨t, .worst⟩, ?_⟩
  apply allocMem_ok
  apply Mem.allocLoop_serve
  rw [Mem.pass_worst_high h high, if_pos big, bitten]
  rfl

/-- The worst fit is not misled: it follows no `NIL_HOLE` and hands out no swap space. -/
def Mem.Trusted (s : Mem cfg) (clicks : Nat) : Prop :=
  s.allocMem .worst clicks ≠ .error .nilHole ∧
    ∀ a base, s.allocMem .worst clicks = .ok (a, some base) → base < s.swapBase

theorem Agrees.trusted (agrees : Agrees s clicks) : s.Trusted clicks := by
  refine ⟨agrees.exists_hole, fun a base served => ?_⟩
  obtain ⟨u, swapped, holes, -, g, -, rfl, low⟩ := agrees.ordinary a base served
  rwa [swapped.swapBase] at low

theorem Mem.Trusted.soundHead (trusted : s.Trusted clicks) (wf : s.WellFormed) : s.SoundHead clicks := by
  obtain ⟨used, free, h, -⟩ := wf
  cases used with
  | nil => exact absurd (allocMem_worst_nil (seg_nil.1 h.holes)) trusted.1
  | cons x used =>
    have first : s.holeHead = some x := (seg_cons.1 h.holes).1
    by_contra unsound
    have high : ¬ (s.span x).base < s.swapBase := fun low => unsound ⟨x, first, .inl low⟩
    have big : clicks ≤ (s.span x).len := by
      by_contra small
      exact unsound ⟨x, first, .inr (by omega)⟩
    obtain ⟨a, served⟩ := allocMem_worst_high h high big
    exact high (trusted.2 a _ served)

/-- Until the request is served, the worst fit is asked again after each `swap_out`. -/
theorem Mem.Trusted.retry (trusted : s.Trusted clicks) (wf : s.WellFormed) (retry : s.Retry clicks t) :
    t.WellFormed ∧ t.Trusted clicks := by
  obtain ⟨short, swapped⟩ := retry
  have released := wf.released swapped
  obtain ⟨used, free, h, -⟩ := id wf
  have again : s.allocMem .worst clicks = t.allocMem .worst clicks := by
    rcases Mem.pass_worst_sound h (trusted.soundHead wf) with
      ⟨l, x, r, u, used', free', -, low, fits, -⟩ | ⟨none, -⟩
    · have := h.short_iff.1 short x low
      omega
    · unfold Mem.allocMem Allocator.allocMem
      dsimp only
      rw [Mem.allocLoop_swap none, swapped]
      rfl
  refine ⟨released.wellFormed, ?_⟩
  unfold Mem.Trusted
  rw [← again, released.swapBase]
  exact trusted

theorem Agrees.headsSound (agrees : Agrees s clicks) (wf : s.WellFormed) : s.HeadsSound clicks := by
  intro t path
  have kept : t.WellFormed ∧ t.Trusted clicks := by
    induction path with
    | refl => exact ⟨wf, agrees.trusted⟩
    | tail _ retry ih => exact ih.2.retry ih.1 retry
  exact kept.2.soundHead kept.1

/-- **Worst fit agrees with first fit exactly when the heads it looks at are sound**: whenever it looks at
the hole list, the list is not empty, and its first hole is ordinary memory or too small for the
request. -/
theorem worst_fit_agrees (wf : s.WellFormed) : Agrees s clicks ↔ s.HeadsSound clicks := by
  constructor
  · exact fun agrees => agrees.headsSound wf
  · exact agrees_of_headsSound wf

/-- Two clicks of ordinary memory at 2 and five of the swap area at 20. Process 1 waits in the four clicks
at `base`. -/
def crowded (base : Nat) : Mem small where
  hole := fun i => if i = 0 then ⟨some 1, 2, 2⟩ else if i = 1 then ⟨none, 20, 5⟩ else
    ⟨if i < 3 then some (i + 1) else none, 0, 0⟩
  holeHead := some 0
  freeSlots := some 2
  swapBase := 16
  mproc := fun i => if i = 1 then ⟨{.waiting}, ⟨0, base, 2⟩, ⟨2, base + 2, 2⟩⟩ else ⟨∅, ⟨0, 0, 0⟩, ⟨0, 0, 0⟩⟩
  outswap := ⟨1, small_user⟩

theorem crowded_table {base : Nat} : (crowded base).HoleList [0, 1] [2, 3] where
  holes := ⟨rfl, rfl, rfl⟩
  slots := ⟨rfl, rfl, rfl⟩
  nodup := by decide
  inTable := by decide

theorem crowded_wellFormed {base : Nat} : (crowded base).WellFormed := by
  refine ⟨[0, 1], [2, 3], crowded_table, fun h hh => ?_⟩
  rcases List.mem_pair.1 hh with rfl | rfl
  · show 0 < 2
    omega
  · show 0 < 5
    omega

theorem crowded_resident : (crowded 4).Resident := by
  intro rmp _ pos
  have low : 1 ≤ rmp.1 := rmp.2.1
  have high : rmp.1 < 2 := rmp.2.2
  obtain rfl : rmp = ⟨1, small_user⟩ := by
    apply Subtype.ext
    show rmp.1 = 1
    omega
  decide

/-- Nothing is free for six clicks until the process is swapped out. -/
theorem crowded_retry : ∃ t, (crowded 4).Retry 6 t := by
  have short : (crowded 4).Short 6 := by
    refine crowded_table.short_iff.2 fun x hx => ?_
    have first : (crowded 4).ordinary [0, 1] = [0] := by decide
    rw [first] at hx
    obtain rfl := List.mem_singleton.1 hx
    decide
  obtain ⟨t, moved⟩ : ∃ t, (crowded 4).swapTo ⟨1, small_user⟩ (some 0) 1 = .ok t := ⟨_, rfl⟩
  have place : (crowded 4).swapPlace ⟨1, small_user⟩ = .ok (some (some 0, 1)) := by decide
  refine ⟨t, short, ?_⟩
  show (crowded 4).swapOutAfter ⟨1, small_user⟩ = .ok (t, true)
  rw [Mem.swapOutAfter]
  show (crowded 4).swapPlace ⟨1, small_user⟩ >>= _ = _
  rw [place, ok_bind]
  show (crowded 4).swapTo ⟨1, small_user⟩ (some 0) 1 >>= _ = _
  rw [moved]
  rfl

/-- The hole that the process leaves is joined to the first, which serves the request. -/
theorem worst_fit_agrees_crowded : Agrees (crowded 4) 6 ∧ ∃ t, (crowded 4).Retry 6 t := by
  refine ⟨(worst_fit_agrees crowded_wellFormed).2 ?_, crowded_retry⟩
  exact (crowded_resident.headsSound_iff crowded_wellFormed).2 ⟨0, rfl, .inl (by decide)⟩

/-- A single hole of five clicks at `base`, with `swap_base` at 16. -/
def lone (base : Nat) : Mem small where
  hole := fun i => if i = 0 then ⟨none, base, 5⟩ else ⟨if i < 3 then some (i + 1) else none, 0, 0⟩
  holeHead := some 0
  freeSlots := some 1
  swapBase := 16
  mproc := fun _ => ⟨∅, ⟨0, 0, 0⟩, ⟨0, 0, 0⟩⟩
  outswap := ⟨1, small_user⟩

theorem lone_table {base : Nat} : (lone base).HoleList [0] [1, 2, 3] where
  holes := ⟨rfl, rfl⟩
  slots := ⟨rfl, rfl, rfl, rfl⟩
  nodup := by decide
  inTable := by decide

theorem lone_wellFormed {base : Nat} : (lone base).WellFormed := by
  refine ⟨[0], [1, 2, 3], lone_table, fun h hh => ?_⟩
  obtain rfl := List.mem_singleton.1 hh
  show 0 < 5
  omega

/-- With the swap area as the only hole the worst fit hands it out, and with no hole at all it follows
`NIL_HOLE`. -/
theorem worst_fit_misled :
    (lone 20).WellFormed ∧ (∃ a, (lone 20).allocMem .worst 2 = .ok (a, some 20)) ∧ ¬ Agrees (lone 20) 2 ∧
      { lone 20 with holeHead := none }.allocMem .worst 2 = .error .nilHole := by
  have high : ¬ ((lone 20).span 0).base < (lone 20).swapBase := by decide
  refine ⟨lone_wellFormed, ?_, fun agrees => ?_, allocMem_worst_nil rfl⟩
  · exact allocMem_worst_high lone_table high (by decide)
  · obtain ⟨head, first, sound⟩ := agrees.trusted.soundHead lone_wellFormed
    obtain rfl : 0 = head := Option.some.inj first
    rcases sound with low | few
    · exact high low
    · exact absurd few (by decide)

end SoiExercises.Alloc
