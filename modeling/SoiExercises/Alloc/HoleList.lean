import Mathlib.Data.List.Perm.Subperm
import SoiExercises.Lib.Segment
import SoiExercises.Lib.Spans
import SoiExercises.Alloc.Memory

/-!
# The hole list at the level of pointers

`HoleList s used free` says that the links of the hole table thread the list of holes through the slots
`used` and the list of unused slots through `free`. Each operation completes on such a table, keeps
it, and does to the spans of the list what the operation of `SoiExercises.Lib.Spans` does: `merge` is
`join`, `free_mem` is `insertSpan`, and a bite is `Span.shrink`.
-/

namespace SoiExercises.Alloc

open SoiExercises.Lib

namespace Mem

variable {cfg : Config} {s t : Mem cfg} {used free l r : List Nat} {x y : Nat} {prev : Option Nat}

theorem perm_second : (l ++ x :: y :: r).Perm (y :: (l ++ x :: r)) := by
  have split : (l ++ [x] ++ y :: r).Perm (y :: (l ++ [x] ++ r)) := List.perm_middle
  simpa using split

/-- The slot of the hole behind `x` becomes unused. -/
theorem perm_absorbed : ((l ++ x :: r) ++ y :: free).Perm ((l ++ x :: y :: r) ++ free) := by
  have new : ((l ++ x :: r) ++ y :: free).Perm (y :: ((l ++ x :: r) ++ free)) := List.perm_middle
  exact new.trans (perm_second.append_right free).symm

/-- The slot of the hole `x` becomes unused. -/
theorem perm_deleted : ((l ++ r) ++ x :: free).Perm ((l ++ x :: r) ++ free) := by
  have new : ((l ++ r) ++ x :: free).Perm (x :: ((l ++ r) ++ free)) := List.perm_middle
  have old : (l ++ x :: r).Perm (x :: (l ++ r)) := List.perm_middle
  exact new.trans (old.append_right free).symm

/-- The links of the hole table. -/
def next (s : Mem cfg) (i : Nat) : Option Nat := (s.hole i).next

def span (s : Mem cfg) (i : Nat) : Span := ⟨(s.hole i).base, (s.hole i).len⟩

/-- The table holds the list of holes `used` and the list of unused slots `free`. -/
structure HoleList (s : Mem cfg) (used free : List Nat) : Prop where
  holes : Listed s.next s.holeHead used
  slots : Listed s.next s.freeSlots free
  nodup : (used ++ free).Nodup
  inTable : ∀ i ∈ used ++ free, i < cfg.NR_HOLES

@[simp] theorem next_setHole {h : Hole} : (s.setHole x h).next = Function.update s.next x h.next := by
  funext i
  unfold next setHole
  by_cases hi : i = x
  · subst hi
    simp
  · simp [hi]

@[simp] theorem span_setHole {h : Hole} : (s.setHole x h).span = Function.update s.span x ⟨h.base, h.len⟩ := by
  funext i
  unfold span setHole
  by_cases hi : i = x
  · subst hi
    simp
  · simp [hi]

@[simp] theorem next_setNext {v : Option Nat} : (s.setNext x v).next = Function.update s.next x v :=
  next_setHole

@[simp] theorem span_setNext {v : Option Nat} : (s.setNext x v).span = s.span :=
  span_setHole.trans (Function.update_eq_self x s.span)

/-- Spans of slots other than `x` after the span of `x` has changed. -/
theorem map_span_update {h : Span} (outside : x ∉ l) : l.map (Function.update s.span x h) = l.map s.span :=
  List.map_congr_left fun _ hi => Function.update_of_ne (ne_of_mem_of_not_mem hi outside) h s.span

namespace HoleList

theorem used_nodup (h : HoleList s used free) : used.Nodup := (List.nodup_append.1 h.nodup).1

theorem not_mem_free (h : HoleList s used free) (hx : x ∈ used) : x ∉ free := fun hf =>
  (List.nodup_append.1 h.nodup).2.2 x hx x hf rfl

/-- A hole is on the list once. -/
theorem once (h : HoleList s (l ++ x :: r) free) : x ∉ l ∧ x ∉ r := by
  obtain ⟨-, right, across⟩ := List.nodup_append.1 h.used_nodup
  exact ⟨fun again => across x again x List.mem_cons_self rfl, (List.nodup_cons.1 right).1⟩

/-- The table is long enough for the walks along the list. -/
theorem length_le (h : HoleList s used free) : used.length ≤ cfg.NR_HOLES := by
  have inside : used ⊆ List.range cfg.NR_HOLES := fun i hi =>
    List.mem_range.2 (h.inTable i (List.mem_append_left free hi))
  simpa using (h.used_nodup.subperm inside).length_le

/-- The same lists in another order of slots. -/
theorem of_perm {used' free' : List Nat} (h : HoleList s used free)
    (holes : Listed t.next t.holeHead used') (slots : Listed t.next t.freeSlots free')
    (perm : (used' ++ free').Perm (used ++ free)) : HoleList t used' free' where
  holes := holes
  slots := slots
  nodup := perm.nodup_iff.2 h.nodup
  inTable := fun i hi => h.inTable i (perm.mem_iff.1 hi)

/-- A change of a span. -/
theorem setSpan {h : Hole} (hl : HoleList s used free) (same : h.next = s.next x) :
    HoleList (s.setHole x h) used free := by
  have links : (s.setHole x h).next = s.next := by
    rw [next_setHole, same, Function.update_eq_self]
  refine hl.of_perm ?_ ?_ (.refl _)
  · rw [links]
    exact hl.holes
  · rw [links]
    exact hl.slots

/-- `del_slot` of the head. -/
theorem delSlot_head (h : HoleList s (x :: r) free) (prev : Option Nat) :
    ∃ t, s.delSlot prev x = .ok t ∧ HoleList t r (x :: free) ∧ t.span = s.span := by
  obtain ⟨head, rest⟩ := seg_cons.1 h.holes
  have outside : x ∉ r := (List.nodup_cons.1 h.used_nodup).1
  have unused : x ∉ free := h.not_mem_free List.mem_cons_self
  have unlinked : s.unlink prev x = .ok { s with holeHead := s.next x } := if_pos head
  refine ⟨{ { s with holeHead := s.next x }.setNext x s.freeSlots with freeSlots := some x }, ?_, ?_, ?_⟩
  · unfold delSlot
    rw [unlinked]
    rfl
  · refine h.of_perm ?_ ?_ List.perm_middle
    · show Listed (Mem.next (setNext _ x _)) (s.next x) r
      rw [next_setNext]
      exact rest.update outside
    · show Listed (Mem.next (setNext _ x _)) (some x) (x :: free)
      rw [next_setNext]
      refine ⟨rfl, ?_⟩
      rw [Function.update_self]
      exact h.slots.update unused
  · exact span_setNext

/-- `del_slot` of a hole that is not the head. -/
theorem delSlot_next (h : HoleList s (l ++ x :: y :: r) free) :
    ∃ t, s.delSlot (some x) y = .ok t ∧ HoleList t (l ++ x :: r) (y :: free) ∧ t.span = s.span := by
  have member : y ∈ l ++ x :: y :: r := by simp
  have distinct := h.used_nodup
  have outside : y ∉ l ++ x :: r := by
    exact (List.nodup_cons.1 (perm_second.nodup_iff.1 distinct)).1
  have notHead : s.holeHead ≠ some y := by
    intro head
    rw [h.holes.head?] at head
    cases l with
    | nil =>
      obtain rfl : x = y := Option.some.inj head
      exact outside List.mem_cons_self
    | cons z l =>
      obtain rfl : z = y := Option.some.inj head
      exact outside List.mem_cons_self
  have unlinked : s.unlink (some x) y = .ok (s.setNext x (s.next y)) := if_neg notHead
  refine ⟨{ (s.setNext x (s.next y)).setNext y s.freeSlots with freeSlots := some y }, ?_, ?_, ?_⟩
  · unfold delSlot
    rw [unlinked]
    rfl
  · have unused : y ∉ free := h.not_mem_free member
    have unused' : x ∉ free := h.not_mem_free (by simp)
    refine h.of_perm ?_ ?_ perm_absorbed
    · show Listed (Mem.next (setNext _ y _)) s.holeHead (l ++ x :: r)
      rw [next_setNext, next_setNext]
      exact h.holes.remove.update outside
    · show Listed (Mem.next (setNext _ y _)) (some y) (y :: free)
      rw [next_setNext, next_setNext]
      refine ⟨rfl, ?_⟩
      rw [Function.update_self]
      exact (h.slots.update unused').update unused
  · exact span_setNext.trans span_setNext

/-- `absorb` makes one hole of two. -/
theorem absorb (h : HoleList s (l ++ x :: y :: r) free) :
    ∃ t, s.absorb x y = .ok t ∧ HoleList t (l ++ x :: r) (y :: free) ∧
      t.span = Function.update s.span x ((s.span x).union (s.span y)) := by
  have grown := h.setSpan (x := x) (h := { s.hole x with len := (s.hole x).len + (s.hole y).len }) rfl
  obtain ⟨t, done, hl, spans⟩ := grown.delSlot_next
  exact ⟨t, done, hl, spans.trans span_setHole⟩

theorem touches_iff : s.touches x y ↔ (s.span x).stop = (s.span y).base := by
  unfold touches
  exact decide_eq_true_iff

/-- The link of a hole on the list. -/
theorem next_eq (h : HoleList s (l ++ x :: r) free) : (s.hole x).next = r.head? :=
  h.holes.rest.head?

/-- The second half of `merge` is `joinNext`. -/
theorem mergeNext (h : HoleList s (l ++ x :: r) free) :
    ∃ t r' free', s.mergeNext x = .ok t ∧ HoleList t (l ++ x :: r') free' ∧
      ((l ++ x :: r') ++ free').Perm ((l ++ x :: r) ++ free) ∧
      (l ++ x :: r').map t.span = l.map s.span ++ joinNext (s.span x) (r.map s.span) := by
  unfold Mem.mergeNext
  rw [h.next_eq]
  cases r with
  | nil => exact ⟨s, [], free, rfl, h, .refl _, by simp [joinNext]⟩
  | cons y r =>
    dsimp only [List.head?_cons]
    by_cases touch : s.touches x y
    · obtain ⟨t, done, hl, spans⟩ := h.absorb
      rw [if_pos touch]
      refine ⟨t, r, _, done, hl, perm_absorbed, ?_⟩
      obtain ⟨before, after⟩ := hl.once
      rw [List.map_append, List.map_cons, spans, map_span_update before, map_span_update after,
        Function.update_self, List.map_cons, joinNext, if_pos (touches_iff.1 touch)]
    · rw [if_neg touch]
      refine ⟨s, y :: r, free, rfl, h, .refl _, ?_⟩
      rw [List.map_append, List.map_cons, List.map_cons, joinNext, if_neg (mt touches_iff.2 touch)]

/-- **`merge` is `join`.** -/
theorem merge (h : HoleList s (l ++ x :: r) free) :
    ∃ t r' free', s.merge x = .ok t ∧ HoleList t (l ++ x :: r') free' ∧
      ((l ++ x :: r') ++ free').Perm ((l ++ x :: r) ++ free) ∧
      (l ++ x :: r').map t.span = l.map s.span ++ join (s.span x) (r.map s.span) := by
  unfold Mem.merge
  rw [h.next_eq]
  cases r with
  | nil => exact ⟨s, [], free, rfl, h, .refl _, by simp [join]⟩
  | cons y r =>
    dsimp only [List.head?_cons]
    by_cases touch : s.touches x y
    · obtain ⟨t, done, hl, spans⟩ := h.absorb
      obtain ⟨u, r', free', done', hl', perm, spans'⟩ := hl.mergeNext
      rw [if_pos touch, done]
      refine ⟨u, r', free', done', hl', perm.trans perm_absorbed, ?_⟩
      obtain ⟨before, after⟩ := hl.once
      rw [spans', spans, map_span_update before, map_span_update after, Function.update_self,
        List.map_cons, join, if_pos (touches_iff.1 touch)]
    · have h' : HoleList s ((l ++ [x]) ++ y :: r) free := by simpa using h
      obtain ⟨t, r', free', done, hl, perm, spans⟩ := h'.mergeNext
      rw [if_neg touch]
      refine ⟨t, y :: r', free', done, by simpa using hl, by simpa using perm, ?_⟩
      have joined : (l ++ x :: y :: r').map t.span =
          l.map s.span ++ s.span x :: joinNext (s.span y) (r.map s.span) := by simpa using spans
      rw [joined, List.map_cons, join, if_neg (mt touches_iff.2 touch)]

/-- A new hole in front. -/
theorem linkFirst {new : Nat} (h : HoleList s used free) (fresh : new ∉ used ++ free)
    (inTable : new < cfg.NR_HOLES) :
    ∃ t used' free', s.linkFirst new = .ok t ∧ HoleList t used' free' ∧
      (used' ++ free').Perm (new :: (used ++ free)) ∧
      used'.map t.span = join (s.span new) (used.map s.span) := by
  have fresh_used : new ∉ used := fun hn => fresh (List.mem_append_left free hn)
  have fresh_free : new ∉ free := fun hn => fresh (List.mem_append_right used hn)
  have linked : HoleList { s.setNext new s.holeHead with holeHead := some new } ([] ++ new :: used) free := by
    refine ⟨?_, ?_, List.nodup_cons.2 ⟨fresh, h.nodup⟩, ?_⟩
    · show Listed (Mem.next (setNext _ new _)) (some new) (new :: used)
      rw [next_setNext]
      refine ⟨rfl, ?_⟩
      rw [Function.update_self]
      exact h.holes.update fresh_used
    · show Listed (Mem.next (setNext _ new _)) s.freeSlots free
      rw [next_setNext]
      exact h.slots.update fresh_free
    · intro i hi
      rcases List.mem_cons.1 hi with rfl | hi
      · exact inTable
      · exact h.inTable i hi
  obtain ⟨t, r', free', done, hl, perm, spans⟩ := linked.merge
  have same : Mem.span { s.setNext new s.holeHead with holeHead := some new } = s.span := span_setNext
  rw [same] at spans
  exact ⟨t, _, free', done, hl, perm, spans⟩

/-- A new hole behind `x`. -/
theorem linkAfter {new : Nat} (h : HoleList s (l ++ x :: r) free) (fresh : new ∉ (l ++ x :: r) ++ free)
    (inTable : new < cfg.NR_HOLES) :
    ∃ t used' free', s.linkAfter new x = .ok t ∧ HoleList t used' free' ∧
      (used' ++ free').Perm (new :: ((l ++ x :: r) ++ free)) ∧
      used'.map t.span = l.map s.span ++ join (s.span x) (s.span new :: r.map s.span) := by
  have fresh_used : new ∉ l ++ x :: r := fun hn => fresh (List.mem_append_left free hn)
  have fresh_free : new ∉ free := fun hn => fresh (List.mem_append_right _ hn)
  have unused : x ∉ free := h.not_mem_free (by simp)
  have moved : ((l ++ x :: new :: r) ++ free).Perm (new :: ((l ++ x :: r) ++ free)) :=
    perm_second.append_right free
  have linked : HoleList ((s.setNext new (s.hole x).next).setNext x (some new)) (l ++ x :: new :: r) free := by
    refine ⟨?_, ?_, moved.nodup_iff.2 (List.nodup_cons.2 ⟨fresh, h.nodup⟩), ?_⟩
    · rw [next_setNext, next_setNext]
      exact h.holes.insert fresh_used
    · rw [next_setNext, next_setNext]
      exact (h.slots.update fresh_free).update unused
    · intro i hi
      rcases List.mem_cons.1 (moved.mem_iff.1 hi) with rfl | hi
      · exact inTable
      · exact h.inTable i hi
  obtain ⟨t, r', free', done, hl, perm, spans⟩ := linked.merge
  rw [span_setNext, span_setNext] at spans
  exact ⟨t, _, free', done, hl, perm.trans moved, spans⟩

/-- The search of `free_mem` finds the place where `insertAfter` inserts. -/
theorem findPlace {b : Span} {fuel : Nat} (listed : Listed s.next (s.next x) l) (enough : l.length < fuel) :
    ∃ pre y post, x :: l = pre ++ y :: post ∧ s.findPlace b.base fuel x (s.next x) = .ok y ∧
      insertAfter b (s.span x) (l.map s.span) =
        pre.map s.span ++ join (s.span y) (b :: post.map s.span) := by
  induction l generalizing x fuel with
  | nil =>
    obtain ⟨fuel, rfl⟩ : ∃ n, fuel = n + 1 := ⟨fuel - 1, by simp at enough; omega⟩
    refine ⟨[], x, [], rfl, ?_, rfl⟩
    rw [seg_nil.1 listed]
    rfl
  | cons z l ih =>
    obtain ⟨fuel, rfl⟩ : ∃ n, fuel = n + 1 := ⟨fuel - 1, by simp at enough; omega⟩
    obtain ⟨head, rest⟩ := seg_cons.1 listed
    rw [head, Mem.findPlace]
    by_cases below : (s.span z).base < b.base
    · rw [if_pos (show (s.hole z).base < b.base from below)]
      obtain ⟨pre, y, post, split, found, spans⟩ := ih rest (by simp at enough; omega)
      refine ⟨x :: pre, y, post, by rw [split]; rfl, found, ?_⟩
      rw [List.map_cons, insertAfter, if_pos below, spans]
      rfl
    · rw [if_neg (show ¬ (s.hole z).base < b.base from below)]
      refine ⟨[], x, z :: l, rfl, rfl, ?_⟩
      rw [List.map_cons, insertAfter, if_neg below]
      rfl

/-- **`free_mem` is `insertSpan`**, as long as there is an unused slot. -/
theorem freeMem {b : Span} {new : Nat} (h : HoleList s used (new :: free)) (pos : 0 < b.len) :
    ∃ t used' free', s.freeMem b.base b.len = .ok t ∧ HoleList t used' free' ∧
      (used' ++ free').Perm (used ++ new :: free) ∧
      used'.map t.span = insertSpan b (used.map s.span) := by
  have moved : (used ++ new :: free).Perm (new :: (used ++ free)) := List.perm_middle
  obtain ⟨fresh, distinct⟩ := List.nodup_cons.1 (moved.nodup_iff.1 h.nodup)
  obtain ⟨slot, slots⟩ := seg_cons.1 h.slots
  have inTable : new < cfg.NR_HOLES := h.inTable new (by simp)
  have fresh_used : new ∉ used := fun hn => fresh (List.mem_append_left free hn)
  have taken : HoleList (s.takeSlot new b.base b.len) used free := by
    have links : (s.takeSlot new b.base b.len).next = s.next := by
      show Mem.next (setHole _ new _) = _
      rw [next_setHole]
      exact Function.update_eq_self new s.next
    refine ⟨?_, ?_, distinct, fun i hi => h.inTable i (moved.mem_iff.2 (List.mem_cons_of_mem new hi))⟩
    · rw [links]
      exact h.holes
    · rw [links]
      exact slots
  have spans : (s.takeSlot new b.base b.len).span = Function.update s.span new b := span_setHole
  have old : used.map (s.takeSlot new b.base b.len).span = used.map s.span := by
    rw [spans, map_span_update fresh_used]
  have block : (s.takeSlot new b.base b.len).span new = b := by
    rw [spans, Function.update_self]
  unfold Mem.freeMem
  rw [if_neg (by omega), slot]
  dsimp only
  cases used with
  | nil =>
    have none : (s.takeSlot new b.base b.len).holeHead = none := seg_nil.1 h.holes
    rw [none]
    obtain ⟨t, used', free', done, hl, perm, joined⟩ := taken.linkFirst fresh inTable
    refine ⟨t, used', free', done, hl, perm, ?_⟩
    rw [joined, block]
    rfl
  | cons x used =>
    have head : (s.takeSlot new b.base b.len).holeHead = some x := (seg_cons.1 h.holes).1
    have hole : ((s.takeSlot new b.base b.len).hole x).base = (s.span x).base := by
      have ne : x ≠ new := fun same => fresh_used (same ▸ List.mem_cons_self)
      exact congrArg Span.base ((congrFun spans x).trans (Function.update_of_ne ne b s.span))
    rw [head]
    dsimp only
    by_cases front : b.base ≤ (s.span x).base
    · rw [hole, if_pos front]
      obtain ⟨t, used', free', done, hl, perm, joined⟩ := taken.linkFirst fresh inTable
      refine ⟨t, used', free', done, hl, perm.trans moved.symm, ?_⟩
      rw [joined, block, old, List.map_cons, insertSpan, if_pos front]
    · rw [hole, if_neg front]
      have enough : used.length < cfg.NR_HOLES := h.length_le
      obtain ⟨pre, y, post, split, found, placed⟩ := findPlace (b := b) taken.holes.2 enough
      rw [split] at taken fresh moved
      obtain ⟨t, used', free', done, hl, perm, joined⟩ := taken.linkAfter fresh inTable
      have searched : (s.takeSlot new b.base b.len).findPlace b.base (cfg.NR_HOLES + 1) x (some x) = .ok y := by
        rw [Mem.findPlace, hole, if_pos (by omega)]
        exact found
      rw [searched]
      refine ⟨t, used', free', done, hl, ?_, ?_⟩
      · rw [split]
        exact perm.trans moved.symm
      · obtain ⟨first, rest⟩ := List.cons.inj old
        rw [joined, block, ← placed, first, rest, List.map_cons, insertSpan, if_neg front]

/-- **A bite** takes the front of its hole, if `prev` is the hole before it, and the slot of a hole that is used
up is free. -/
theorem bite_slots {clicks : Nat} (h : HoleList s (l ++ x :: r) free) (prev : Option Nat)
    (hprev : l ≠ [] → prev = l.getLast?) (fits : clicks ≤ (s.span x).len) :
    ∃ t, s.bite prev x clicks = .ok (t, (s.span x).base) ∧
      t.span = Function.update s.span x ⟨(s.span x).base + clicks, (s.span x).len - clicks⟩ ∧
      ((s.span x).len = clicks → HoleList t (l ++ r) (x :: free)) ∧
      ((s.span x).len ≠ clicks → HoleList t (l ++ x :: r) free) := by
  have bitten := h.setSpan (x := x)
    (h := { s.hole x with base := (s.hole x).base + clicks, len := (s.hole x).len - clicks }) rfl
  have spans := span_setHole (s := s) (x := x)
    (h := { s.hole x with base := (s.hole x).base + clicks, len := (s.hole x).len - clicks })
  unfold Mem.bite
  dsimp only
  have fits : clicks ≤ (s.hole x).len := fits
  by_cases whole : (s.hole x).len - clicks = 0
  · have spent : (s.span x).len = clicks := by
      show (s.hole x).len = clicks
      omega
    rw [if_pos whole]
    rcases List.eq_nil_or_concat l with rfl | ⟨l', z, rfl⟩
    · obtain ⟨t, done, hl, same⟩ := bitten.delSlot_head prev
      rw [done]
      exact ⟨t, rfl, same.trans spans, fun _ => hl, fun kept => absurd spent kept⟩
    · rw [List.concat_eq_append] at bitten hprev ⊢
      have split : l' ++ [z] ++ x :: r = l' ++ z :: x :: r := by simp
      have joined : l' ++ [z] ++ r = l' ++ z :: r := by simp
      rw [split] at bitten
      have last : prev = some z := by simpa using hprev
      obtain ⟨t, done, hl, same⟩ := bitten.delSlot_next
      rw [last, done, joined]
      exact ⟨t, rfl, same.trans spans, fun _ => hl, fun kept => absurd spent kept⟩
  · have kept : (s.span x).len ≠ clicks := by
      show (s.hole x).len ≠ clicks
      omega
    rw [if_neg whole]
    exact ⟨_, rfl, spans, fun spent => absurd spent kept, fun _ => bitten⟩

/-- A bite shrinks its span. -/
theorem bite {clicks : Nat} (h : HoleList s (l ++ x :: r) free) (prev : Option Nat)
    (hprev : l ≠ [] → prev = l.getLast?)
    (fits : clicks ≤ (s.span x).len) :
    ∃ t used' free', s.bite prev x clicks = .ok (t, (s.span x).base) ∧ HoleList t used' free' ∧
      (used' ++ free').Perm ((l ++ x :: r) ++ free) ∧
      used'.map t.span = l.map s.span ++ ((s.span x).shrink clicks ++ r.map s.span) := by
  obtain ⟨before, after⟩ := h.once
  obtain ⟨t, done, spans, shorter, shrunk⟩ := h.bite_slots prev hprev fits
  unfold Span.shrink
  by_cases spent : (s.span x).len = clicks
  · refine ⟨t, _, _, done, shorter spent, perm_deleted, ?_⟩
    rw [if_pos spent, List.map_append, spans, map_span_update before, map_span_update after]
    rfl
  · refine ⟨t, _, _, done, shrunk spent, .refl _, ?_⟩
    rw [if_neg spent, List.map_append, List.map_cons, spans, map_span_update before, map_span_update after,
      Function.update_self]
    rfl

end HoleList

/-- The holes at the front of the list that lie in ordinary memory, which both searches look at. -/
def ordinary (s : Mem cfg) (l : List Nat) : List Nat := l.takeWhile fun i => (s.span i).base < s.swapBase

/-- What a pass of either algorithm does when it is not misled: it bites the request off a hole of
ordinary memory that is big enough, or finds that there is none. -/
def Serves (s : Mem cfg) (used : List Nat) (clicks : Nat) (result : Result (Option (Mem cfg × Nat))) : Prop :=
  (∃ l x r t used' free', used = l ++ x :: r ∧ x ∈ s.ordinary used ∧ clicks ≤ (s.span x).len ∧
    result = .ok (some (t, (s.span x).base)) ∧ s.Frame t ∧ HoleList t used' free' ∧
    used'.map t.span = l.map s.span ++ ((s.span x).shrink clicks ++ r.map s.span)) ∨
  (result = .ok none ∧ ∀ x ∈ s.ordinary used, (s.span x).len < clicks)

theorem ordinary_cons_of_low (low : (s.span x).base < s.swapBase) :
    s.ordinary (x :: l) = x :: s.ordinary l := List.takeWhile_cons_of_pos (by simpa using low)

theorem ordinary_cons_of_high (high : ¬ (s.span x).base < s.swapBase) : s.ordinary (x :: l) = [] :=
  List.takeWhile_cons_of_neg (by simpa using high)

/-- `prev_ptr` behind the part `l₁` of a walk that has gone over `x` and `l₁`. -/
theorem getLast?_cons_or {l₁ : List Nat} : (x :: l₁).getLast?.or prev = l₁.getLast?.or (some x) := by
  cases l₁ with
  | nil => rfl
  | cons z l₁ => simp [List.getLast?_cons]

theorem findFirst_spec {fuel : Nat} {p : Option Nat} (prev : Option Nat) (clicks : Nat) (listed : Listed s.next p l)
    (enough : l.length < fuel) :
    (∃ l₁ x l₂, l = l₁ ++ x :: l₂ ∧ x ∈ s.ordinary l ∧ clicks ≤ (s.span x).len ∧
      s.findFirst clicks fuel prev p = .ok (some (l₁.getLast?.or prev, x))) ∨
    (s.findFirst clicks fuel prev p = .ok none ∧ ∀ x ∈ s.ordinary l, (s.span x).len < clicks) := by
  induction l generalizing p prev fuel with
  | nil =>
    obtain ⟨fuel, rfl⟩ : ∃ n, fuel = n + 1 := ⟨fuel - 1, by simp at enough; omega⟩
    obtain rfl := seg_nil.1 listed
    exact .inr ⟨rfl, fun x hx => absurd hx List.not_mem_nil⟩
  | cons z l ih =>
    obtain ⟨fuel, rfl⟩ : ∃ n, fuel = n + 1 := ⟨fuel - 1, by simp at enough; omega⟩
    obtain ⟨rfl, rest⟩ := seg_cons.1 listed
    rw [Mem.findFirst]
    by_cases low : (s.span z).base < s.swapBase
    · rw [if_pos (show (s.hole z).base < s.swapBase from low), ordinary_cons_of_low low]
      by_cases big : clicks ≤ (s.span z).len
      · rw [if_pos (show clicks ≤ (s.hole z).len from big)]
        exact .inl ⟨[], z, l, rfl, List.mem_cons_self, big, rfl⟩
      · rw [if_neg (show ¬ clicks ≤ (s.hole z).len from big)]
        rcases ih (some z) rest (by simp at enough; omega) with
          ⟨l₁, x, l₂, split, inside, fits, found⟩ | ⟨found, small⟩
        · refine .inl ⟨z :: l₁, x, l₂, by rw [split]; rfl, List.mem_cons_of_mem z inside, fits, ?_⟩
          rw [getLast?_cons_or]
          exact found
        · refine .inr ⟨found, fun x hx => ?_⟩
          rcases List.mem_cons.1 hx with rfl | hx
          · omega
          · exact small x hx
    · rw [if_neg (show ¬ (s.hole z).base < s.swapBase from low), ordinary_cons_of_high low]
      exact .inr ⟨rfl, fun x hx => absurd hx List.not_mem_nil⟩

theorem findBiggest_spec {fuel : Nat} {p : Option Nat} (prev biggestPrev : Option Nat) (big : Nat)
    (listed : Listed s.next p l) (enough : l.length < fuel) :
    ∃ found m, s.findBiggest fuel prev biggestPrev (some big) p = .ok (found, some m) ∧
      (s.span big).len ≤ (s.span m).len ∧ (∀ x ∈ s.ordinary l, (s.span x).len ≤ (s.span m).len) ∧
      ((m = big ∧ found = biggestPrev) ∨
        ∃ l₁ l₂, l = l₁ ++ m :: l₂ ∧ m ∈ s.ordinary l ∧ found = l₁.getLast?.or prev ∧
          ∀ x ∈ big :: l₁, (s.span x).len < (s.span m).len) := by
  induction l generalizing p prev biggestPrev big fuel with
  | nil =>
    obtain ⟨fuel, rfl⟩ : ∃ n, fuel = n + 1 := ⟨fuel - 1, by simp at enough; omega⟩
    obtain rfl := seg_nil.1 listed
    exact ⟨_, big, rfl, le_refl _, fun x hx => absurd hx List.not_mem_nil, .inl ⟨rfl, rfl⟩⟩
  | cons z l ih =>
    obtain ⟨fuel, rfl⟩ : ∃ n, fuel = n + 1 := ⟨fuel - 1, by simp at enough; omega⟩
    obtain ⟨rfl, rest⟩ := seg_cons.1 listed
    have enough : l.length < fuel := by simpa using enough
    rw [Mem.findBiggest]
    by_cases low : (s.span z).base < s.swapBase
    · rw [if_pos (show (s.hole z).base < s.swapBase from low), ordinary_cons_of_low low]
      by_cases bigger : (s.span big).len < (s.span z).len
      · rw [if_pos (show (s.hole big).len < (s.hole z).len from bigger)]
        obtain ⟨found, m, done, least, most, place⟩ := ih (some z) prev z rest enough
        refine ⟨found, m, done, by omega, List.forall_mem_cons.2 ⟨least, most⟩, .inr ?_⟩
        rcases place with ⟨rfl, rfl⟩ | ⟨l₁, l₂, split, inside, rfl, earlier⟩
        · exact ⟨[], l, rfl, List.mem_cons_self, rfl, List.forall_mem_cons.2 ⟨bigger, nofun⟩⟩
        · refine ⟨z :: l₁, l₂, by rw [split]; rfl, List.mem_cons_of_mem _ inside, getLast?_cons_or.symm, ?_⟩
          exact List.forall_mem_cons.2 ⟨by omega, earlier⟩
      · rw [if_neg (show ¬ (s.hole big).len < (s.hole z).len from bigger)]
        obtain ⟨found, m, done, least, most, place⟩ := ih (some z) biggestPrev big rest enough
        refine ⟨found, m, done, least, List.forall_mem_cons.2 ⟨by omega, most⟩, ?_⟩
        rcases place with same | ⟨l₁, l₂, split, inside, rfl, earlier⟩
        · exact .inl same
        · obtain ⟨first, earlier⟩ := List.forall_mem_cons.1 earlier
          refine .inr ⟨z :: l₁, l₂, by rw [split]; rfl, List.mem_cons_of_mem z inside, getLast?_cons_or.symm, ?_⟩
          exact List.forall_mem_cons.2 ⟨first, List.forall_mem_cons.2 ⟨by omega, earlier⟩⟩
    · rw [if_neg (show ¬ (s.hole z).base < s.swapBase from low), ordinary_cons_of_high low]
      exact ⟨_, big, rfl, le_refl _, fun x hx => absurd hx List.not_mem_nil, .inl ⟨rfl, rfl⟩⟩

/-- A pass bites the request off a hole of ordinary memory that is big enough, or finds that there is none. -/
def Bites (s : Mem cfg) (used : List Nat) (clicks : Nat) (result : Result (Option (Mem cfg × Nat))) : Prop :=
  (∃ l x r prev, used = l ++ x :: r ∧ x ∈ s.ordinary used ∧ clicks ≤ (s.span x).len ∧
    (l ≠ [] → prev = l.getLast?) ∧ result = s.bite prev x clicks >>= fun r => .ok (some r)) ∨
  (result = .ok none ∧ ∀ x ∈ s.ordinary used, (s.span x).len < clicks)

/-- A bite serves the request, and no slot gets lost. -/
theorem Bites.serves {clicks : Nat} {result : Result (Option (Mem cfg × Nat))} (bites : s.Bites used clicks result)
    (h : HoleList s used free) : s.Serves used clicks result ∧ ∀ t base, result = .ok (some (t, base)) →
      ∃ used' free', HoleList t used' free' ∧ (used' ++ free').Perm (used ++ free) := by
  rcases bites with ⟨l, x, r, prev, rfl, inside, fits, before, rfl⟩ | ⟨rfl, small⟩
  · obtain ⟨u, used', free', done, hl, perm, spans⟩ := h.bite prev before fits
    rw [done]
    refine ⟨.inl ⟨l, x, r, u, used', free', rfl, inside, fits, rfl, bite_frame _ done, hl, spans⟩, ?_⟩
    intro t base same
    cases same
    exact ⟨used', free', hl, perm⟩
  · exact ⟨.inr ⟨rfl, small⟩, nofun⟩

theorem pass_first_bites {clicks : Nat} (h : HoleList s used free) : s.Bites used clicks (s.pass clicks .first) := by
  have enough : used.length < cfg.NR_HOLES + 1 := Nat.lt_succ_of_le h.length_le
  unfold pass
  rcases findFirst_spec none clicks h.holes enough with
    ⟨l, x, r, rfl, inside, fits, found⟩ | ⟨found, small⟩
  · rw [found]
    exact .inl ⟨l, x, r, _, rfl, inside, fits, fun _ => by simp, rfl⟩
  · rw [found]
    exact .inr ⟨rfl, small⟩

theorem pass_first {clicks : Nat} (h : HoleList s used free) : s.Serves used clicks (s.pass clicks .first) :=
  ((pass_first_bites h).serves h).1

/-- The head of the list is a hole of ordinary memory. -/
def HeadOrdinary (s : Mem cfg) : Prop := ∃ head, s.holeHead = some head ∧ (s.span head).base < s.swapBase

/-- The worst fit does the same as the first fit if its first candidate is a hole of ordinary memory. -/
theorem pass_worst_bites {clicks : Nat} (h : HoleList s used free) (low : s.HeadOrdinary) :
    s.Bites used clicks (s.pass clicks .worst) := by
  have enough : used.length < cfg.NR_HOLES + 1 := Nat.lt_succ_of_le h.length_le
  obtain ⟨head, hhead, low⟩ := low
  obtain ⟨rest, rfl⟩ : ∃ rest, used = head :: rest := by
    have first := h.holes.head?
    cases used with
    | nil => rw [hhead] at first; cases first
    | cons x rest =>
      rw [hhead] at first
      obtain rfl : head = x := Option.some.inj first
      exact ⟨rest, rfl⟩
  have front : head ∈ s.ordinary (head :: rest) := by
    rw [ordinary_cons_of_low low]
    exact List.mem_cons_self
  obtain ⟨found, m, done, -, most, place⟩ := findBiggest_spec none none head h.holes enough
  rw [← hhead] at done
  unfold pass
  have listed : ∃ l r, head :: rest = l ++ m :: r ∧ m ∈ s.ordinary (head :: rest) ∧ (l ≠ [] → found = l.getLast?) := by
    rcases place with ⟨rfl, -⟩ | ⟨l, r, split, inside, rfl, -⟩
    · exact ⟨[], rest, rfl, front, fun ne => absurd rfl ne⟩
    · exact ⟨l, r, split, inside, fun _ => by simp⟩
  obtain ⟨l, r, split, inside, hfound⟩ := listed
  rw [done, ok_bind]
  dsimp only
  by_cases fits : clicks ≤ (s.span m).len
  · rw [if_pos (show clicks ≤ (s.hole m).len from fits)]
    exact .inl ⟨l, m, r, found, split, inside, fits, hfound, rfl⟩
  · rw [if_neg (show ¬ clicks ≤ (s.hole m).len from fits)]
    refine .inr ⟨rfl, fun x hx => ?_⟩
    have := most x hx
    omega

theorem pass_worst {clicks : Nat} (h : HoleList s used free) (low : s.HeadOrdinary) :
    s.Serves used clicks (s.pass clicks .worst) :=
  ((pass_worst_bites h low).serves h).1

end Mem

end SoiExercises.Alloc
