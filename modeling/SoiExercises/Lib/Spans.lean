import Mathlib.Data.Set.Basic
import Mathlib.Data.List.Basic
import Mathlib.Data.List.Perm.Subperm

/-!
# Sorted lists of intervals

A `Span` is a half-open interval of natural numbers, and a list of spans stands for the set it
covers. A `Separated` list (no empty span, increasing, with a gap after each) is the list of the
maximal intervals of that set (`Separated.mem_iff`), so the set determines it (`Separated.ext`). The
two ways a free list changes are `Span.shrink`, which bites a piece off the front of a span, and
`insertSpan`, which inserts a span in order and joins it with the neighbours that it touches; each
keeps the list separated and does to the set what its name says. How long the list can be follows from the
chunks that it started as and the spans that have been taken out (`Separated.length_le`).
-/

namespace SoiExercises.Lib

structure Span where
  base : Nat
  len : Nat
  deriving DecidableEq

namespace Span

/-- The first number after the span. -/
def stop (h : Span) : Nat := h.base + h.len

def Has (h : Span) (x : Nat) : Prop := h.base ≤ x ∧ x < h.stop

/-- What is left of the span after a bite of `n`. -/
def shrink (h : Span) (n : Nat) : List Span := if h.len = n then [] else [⟨h.base + n, h.len - n⟩]

/-- The span and the one that follows it as one. -/
def union (g h : Span) : Span := ⟨g.base, g.len + h.len⟩

/-- The spans have no number in common. -/
def Avoids (g h : Span) : Prop := ∀ x, g.Has x → ¬ h.Has x

theorem Avoids.symm {g h : Span} (avoids : g.Avoids h) : h.Avoids g := fun x hx hg => avoids x hg hx

end Span

/-- The numbers that the spans cover. -/
def cover (l : List Span) : Set Nat := {x | ∃ h ∈ l, h.Has x}

/-- Increasing non-empty spans with a gap after each. -/
structure Separated (l : List Span) : Prop where
  nonempty : ∀ h ∈ l, 0 < h.len
  gaps : l.Pairwise fun g h => g.stop < h.base

/-- Increasing non-empty spans that may touch. -/
structure Ascending (l : List Span) : Prop where
  nonempty : ∀ h ∈ l, 0 < h.len
  order : l.Pairwise fun g h => g.stop ≤ h.base

/-- A non-empty interval of `M` that cannot be extended on either side. -/
structure MaximalIn (M : Set Nat) (h : Span) : Prop where
  nonempty : 0 < h.len
  inside : ∀ x, h.Has x → x ∈ M
  before : ∀ x, x + 1 = h.base → x ∉ M
  after : h.stop ∉ M

variable {g h : Span} {l r : List Span} {M : Set Nat} {n x : Nat}

@[simp] theorem mem_cover_nil : x ∈ cover [] ↔ False := by simp [cover]

@[simp] theorem mem_cover_cons : x ∈ cover (h :: l) ↔ h.Has x ∨ x ∈ cover l := by simp [cover]

@[simp] theorem mem_cover_append : x ∈ cover (l ++ r) ↔ x ∈ cover l ∨ x ∈ cover r := by
  simp [cover, or_and_right, exists_or]

theorem Span.has_base (pos : 0 < h.len) : h.Has h.base := ⟨le_refl _, by unfold Span.stop; omega⟩

theorem Ascending.bases (asc : Ascending l) : l.Pairwise fun g h => g.base < h.base := by
  refine asc.order.imp_of_mem fun {g h} hg _ order => ?_
  have pos := asc.nonempty g hg
  unfold Span.stop at order
  omega

namespace Separated

theorem nil : Separated [] := ⟨fun _ hh => absurd hh List.not_mem_nil, List.Pairwise.nil⟩

/-- A list is separated when its head ends before everything that the rest covers. -/
theorem cons_iff : Separated (h :: l) ↔ 0 < h.len ∧ (∀ x ∈ cover l, h.stop < x) ∧ Separated l := by
  constructor
  · rintro ⟨nonempty, gaps⟩
    obtain ⟨first, rest⟩ := List.pairwise_cons.1 gaps
    refine ⟨nonempty h List.mem_cons_self, ?_, fun k hk => nonempty k (List.mem_cons_of_mem h hk), rest⟩
    rintro x ⟨k, hk, lo, -⟩
    exact lt_of_lt_of_le (first k hk) lo
  · rintro ⟨pos, before, rest⟩
    refine ⟨?_, List.pairwise_cons.2 ⟨fun k hk => ?_, rest.gaps⟩⟩
    · intro k hk
      rcases List.mem_cons.1 hk with rfl | hk
      · exact pos
      · exact rest.nonempty k hk
    · exact before k.base ⟨k, hk, Span.has_base (rest.nonempty k hk)⟩

theorem apart (sep : Separated l) (hg : g ∈ l) (hh : h ∈ l) :
    g = h ∨ g.stop < h.base ∨ h.stop < g.base :=
  List.Pairwise.forall_of_forall_of_flip (R := fun g h => g = h ∨ g.stop < h.base ∨ h.stop < g.base)
    (fun _ _ => .inl rfl) (sep.gaps.imp fun gap => .inr (.inl gap)) (sep.gaps.imp fun gap => .inr (.inr gap))
    hg hh

theorem maximal (sep : Separated l) (hh : h ∈ l) : MaximalIn (cover l) h := by
  have pos := sep.nonempty h hh
  refine ⟨pos, fun x hx => ⟨h, hh, hx⟩, ?_, ?_⟩
  · rintro x hx ⟨g, hg, lo, hi⟩
    rcases sep.apart hg hh with rfl | gap | gap
    · omega
    · omega
    · unfold Span.stop at gap
      omega
  · rintro ⟨g, hg, lo, hi⟩
    rcases sep.apart hg hh with rfl | gap | gap
    · exact lt_irrefl _ hi
    · unfold Span.stop at gap hi
      omega
    · exact absurd (lt_of_lt_of_le gap lo) (lt_irrefl _)

/-- The spans of a separated list are exactly the maximal intervals of what it covers. -/
theorem mem_iff (sep : Separated l) : h ∈ l ↔ MaximalIn (cover l) h := by
  refine ⟨sep.maximal, fun max => ?_⟩
  obtain ⟨g, hg, lo, hi⟩ := max.inside h.base (Span.has_base max.nonempty)
  have known := sep.maximal hg
  have pos := max.nonempty
  have sameBase : g.base = h.base := by
    by_contra ne
    refine max.before (h.base - 1) (by omega) (known.inside _ ⟨by omega, ?_⟩)
    omega
  have sameStop : g.stop = h.stop := by
    rcases lt_trichotomy g.stop h.stop with short | same | long
    · exact absurd (max.inside g.stop ⟨by omega, short⟩) known.after
    · exact same
    · refine absurd (known.inside h.stop ⟨?_, long⟩) max.after
      unfold Span.stop
      omega
  obtain rfl : g = h := by
    cases g
    cases h
    simp only [Span.stop] at sameBase sameStop
    simp only [Span.mk.injEq]
    omega
  exact hg

theorem nodup (sep : Separated l) : l.Nodup := by
  refine sep.gaps.imp fun {g h} gap same => ?_
  subst same
  unfold Span.stop at gap
  omega

/-- The set determines the list. -/
theorem ext (sep : Separated l) (sep' : Separated r) (same : cover l = cover r) : l = r := by
  have members : ∀ h, h ∈ l ↔ h ∈ r := fun h => by rw [sep.mem_iff, sep'.mem_iff, same]
  have perm : l.Perm r := (List.perm_ext_iff_of_nodup sep.nodup sep'.nodup).2 members
  refine perm.eq_of_pairwise ?_ sep.gaps sep'.gaps
  intro g h _ _ gap gap'
  unfold Span.stop at gap gap'
  omega

end Separated

section Gaps

variable {chunks out : List Span}

/-- An interval of what is left of `chunks` without `out` ends where a span of `chunks` ends or one of `out` starts. -/
theorem MaximalIn.stop_mem (max : MaximalIn (cover chunks \ cover out) h) :
    h.stop ∈ out.map Span.base ++ chunks.map Span.stop := by
  have pos := max.nonempty
  obtain ⟨⟨c, hc, lo, hi⟩, free⟩ := max.inside (h.stop - 1) ⟨by unfold Span.stop; omega, by unfold Span.stop; omega⟩
  rw [List.mem_append]
  by_cases taken : h.stop ∈ cover out
  · left
    obtain ⟨b, hb, start, stop⟩ := taken
    have starts : b.base = h.stop := by
      by_contra earlier
      exact free ⟨b, hb, by omega, by omega⟩
    exact starts ▸ List.mem_map_of_mem hb
  · right
    have outside : ¬ c.Has h.stop := fun inside => max.after ⟨⟨c, hc, inside⟩, taken⟩
    have stops : c.stop = h.stop := by
      unfold Span.Has at outside
      unfold Span.stop at *
      omega
    exact stops ▸ List.mem_map_of_mem hc

/-- **A separated list is no longer** than the chunks and the spans taken out of them together: each of its spans
ends at one of them. -/
theorem Separated.length_le (sep : Separated l) (left : cover l = cover chunks \ cover out) :
    l.length ≤ out.length + chunks.length := by
  have distinct : (l.map Span.stop).Nodup := by
    refine List.pairwise_map.2 (sep.gaps.imp fun {g h} gap => ?_)
    unfold Span.stop at gap ⊢
    omega
  have ends : l.map Span.stop ⊆ out.map Span.base ++ chunks.map Span.stop := by
    intro x hx
    obtain ⟨h, hh, rfl⟩ := List.mem_map.1 hx
    exact (left ▸ sep.maximal hh).stop_mem
  simpa using (distinct.subperm ends).length_le

end Gaps

/-- `g` joined with the head of `r` if they touch. -/
def joinNext (g : Span) : List Span → List Span
  | [] => [g]
  | h :: r => if g.stop = h.base then g.union h :: r else g :: h :: r

/-- Three spans in a row are joined where they touch. -/
def join (g : Span) : List Span → List Span
  | [] => [g]
  | h :: r => if g.stop = h.base then joinNext (g.union h) r else g :: joinNext h r

/-- Insert `b` after `g` and before the first span of `r` that does not start below it. -/
def insertAfter (b g : Span) : List Span → List Span
  | [] => join g [b]
  | h :: r => if h.base < b.base then g :: insertAfter b h r else join g (b :: h :: r)

/-- Insert `b` into a sorted list and join what touches. -/
def insertSpan (b : Span) : List Span → List Span
  | [] => join b []
  | h :: r => if b.base ≤ h.base then join b (h :: r) else insertAfter b h r

theorem has_union (touch : g.stop = h.base) : (g.union h).Has x ↔ g.Has x ∨ h.Has x := by
  simp only [Span.Has, Span.union, Span.stop] at *
  omega

theorem stop_union (touch : g.stop = h.base) : (g.union h).stop = h.stop := by
  simp only [Span.union, Span.stop] at *
  omega

theorem cover_joinNext : cover (joinNext g r) = cover (g :: r) := by
  cases r with
  | nil => rfl
  | cons h r =>
    simp only [joinNext]
    split
    · rename_i touch
      ext x
      simp only [mem_cover_cons, has_union touch, or_assoc]
    · rfl

theorem cover_join : cover (join g r) = cover (g :: r) := by
  cases r with
  | nil => rfl
  | cons h r =>
    simp only [join]
    split
    · rename_i touch
      ext x
      rw [cover_joinNext]
      simp only [mem_cover_cons, has_union touch, or_assoc]
    · ext x
      rw [mem_cover_cons, cover_joinNext, ← mem_cover_cons]

theorem joinNext_separated (pos : 0 < g.len) (before : ∀ x ∈ cover r, g.stop ≤ x) (sep : Separated r) :
    Separated (joinNext g r) := by
  cases r with
  | nil => exact Separated.cons_iff.2 ⟨pos, by simp, .nil⟩
  | cons h r =>
    obtain ⟨pos', before', sep'⟩ := Separated.cons_iff.1 sep
    simp only [joinNext]
    split
    · rename_i touch
      refine Separated.cons_iff.2 ⟨?_, fun x hx => ?_, sep'⟩
      · show 0 < g.len + h.len
        omega
      · rw [stop_union touch]
        exact before' x hx
    · rename_i gap
      have first := before h.base (mem_cover_cons.2 (.inl (Span.has_base pos')))
      refine Separated.cons_iff.2 ⟨pos, fun x hx => ?_, sep⟩
      rcases mem_cover_cons.1 hx with ⟨lo, -⟩ | later
      · omega
      · have := before' x later
        unfold Span.stop at *
        omega

theorem join_separated (pos : 0 < g.len) (pos' : 0 < h.len) (touching : g.stop ≤ h.base)
    (before : ∀ x ∈ cover r, h.stop ≤ x) (sep : Separated r) : Separated (join g (h :: r)) := by
  simp only [join]
  split
  · rename_i touch
    refine joinNext_separated ?_ (fun x hx => ?_) sep
    · show 0 < g.len + h.len
      omega
    · rw [stop_union touch]
      exact before x hx
  · refine Separated.cons_iff.2 ⟨pos, fun x hx => ?_, joinNext_separated pos' before sep⟩
    rw [cover_joinNext] at hx
    rcases mem_cover_cons.1 hx with ⟨lo, -⟩ | later
    · omega
    · have := before x later
      unfold Span.stop at *
      omega

section Insert

variable {b : Span}

theorem mem_cover_insertAfter : x ∈ cover (insertAfter b g r) ↔ b.Has x ∨ x ∈ cover (g :: r) := by
  induction r generalizing g with
  | nil =>
    rw [insertAfter, cover_join]
    simp [or_comm]
  | cons h r ih =>
    rw [insertAfter]
    split
    · rw [mem_cover_cons, ih, mem_cover_cons (h := g), or_left_comm]
    · rw [cover_join, mem_cover_cons, mem_cover_cons (h := b), mem_cover_cons (h := g), or_left_comm]

/-- Inserting a span adds it to what the list covers. -/
theorem mem_cover_insertSpan : x ∈ cover (insertSpan b l) ↔ b.Has x ∨ x ∈ cover l := by
  cases l with
  | nil => rw [insertSpan, cover_join, mem_cover_cons]
  | cons h r =>
    rw [insertSpan]
    split
    · rw [cover_join, mem_cover_cons]
    · exact mem_cover_insertAfter

theorem Separated.insertAfter (sep : Separated (g :: r)) (pos : 0 < b.len) (below : g.base < b.base)
    (free : ∀ x, b.Has x → x ∉ cover (g :: r)) : Separated (insertAfter b g r) := by
  induction r generalizing g with
  | nil =>
    have pos' := (Separated.cons_iff.1 sep).1
    have after : g.stop ≤ b.base := by
      by_contra inside
      exact free b.base (Span.has_base pos) (mem_cover_cons.2 (.inl ⟨by omega, by omega⟩))
    exact join_separated pos' pos after (by simp) .nil
  | cons h r ih =>
    obtain ⟨pos', before, sep'⟩ := Separated.cons_iff.1 sep
    obtain ⟨posh, beforeh, -⟩ := Separated.cons_iff.1 sep'
    have gap := before h.base (mem_cover_cons.2 (.inl (Span.has_base posh)))
    rw [SoiExercises.Lib.insertAfter]
    split
    · rename_i beyond
      refine Separated.cons_iff.2 ⟨pos', fun x hx => ?_, ih sep' beyond ?_⟩
      · rcases mem_cover_insertAfter.1 hx with ⟨lo, -⟩ | old
        · omega
        · exact before x old
      · exact fun x hx old => free x hx (mem_cover_cons.2 (.inr old))
    · have after : g.stop ≤ b.base := by
        by_contra inside
        exact free b.base (Span.has_base pos) (mem_cover_cons.2 (.inl ⟨by omega, by omega⟩))
      refine join_separated pos' pos after (fun x hx => ?_) sep'
      by_contra inside
      refine free x ⟨?_, by omega⟩ (mem_cover_cons.2 (.inr hx))
      rcases mem_cover_cons.1 hx with ⟨lo, -⟩ | later
      · omega
      · have := beforeh x later
        unfold Span.stop at this
        omega

/-- **Insertion.** A non-empty span outside what the list covers keeps the list separated. -/
theorem Separated.insertSpan (sep : Separated l) (pos : 0 < b.len)
    (free : ∀ x, b.Has x → x ∉ cover l) : Separated (insertSpan b l) := by
  cases l with
  | nil => exact Separated.cons_iff.2 ⟨pos, by simp, .nil⟩
  | cons h r =>
    obtain ⟨pos', before, sep'⟩ := Separated.cons_iff.1 sep
    rw [SoiExercises.Lib.insertSpan]
    split
    · refine join_separated pos pos' ?_ (fun x hx => (before x hx).le) sep'
      by_contra inside
      exact free h.base ⟨by omega, by omega⟩ (mem_cover_cons.2 (.inl (Span.has_base pos')))
    · exact sep.insertAfter pos (by omega) free

end Insert

section Shrink

theorem mem_cover_shrink (fits : n ≤ h.len) :
    x ∈ cover (h.shrink n) ↔ h.Has x ∧ ¬ (⟨h.base, n⟩ : Span).Has x := by
  unfold Span.shrink
  split
  · rename_i spent
    simp only [mem_cover_nil, Span.Has, Span.stop, false_iff]
    omega
  · simp only [mem_cover_cons, mem_cover_nil, or_false, Span.Has, Span.stop]
    omega

/-- **A bite** of `n` from a span of the list keeps the list separated. -/
theorem Separated.shrink (sep : Separated (l ++ h :: r)) (fits : n ≤ h.len) :
    Separated (l ++ (h.shrink n ++ r)) := by
  induction l with
  | nil =>
    obtain ⟨pos, before, sep'⟩ := Separated.cons_iff.1 sep
    unfold Span.shrink
    split
    · exact sep'
    · refine Separated.cons_iff.2 ⟨?_, fun x hx => ?_, sep'⟩
      · show 0 < h.len - n
        omega
      · have := before x hx
        simp only [Span.stop] at this ⊢
        omega
  | cons g l ih =>
    rw [List.cons_append, Separated.cons_iff] at sep ⊢
    obtain ⟨pos, before, sep'⟩ := sep
    refine ⟨pos, fun x hx => before x ?_, ih sep'⟩
    rw [mem_cover_append] at hx ⊢
    refine hx.imp_right fun hx => ?_
    rw [mem_cover_append, mem_cover_shrink fits] at hx
    exact mem_cover_cons.2 (hx.imp_left And.left)

/-- A bite takes what it says from what the list covers. -/
theorem Separated.mem_cover_shrink (sep : Separated (l ++ h :: r)) (fits : n ≤ h.len) :
    x ∈ cover (l ++ (h.shrink n ++ r)) ↔ x ∈ cover (l ++ h :: r) ∧ ¬ (⟨h.base, n⟩ : Span).Has x := by
  obtain ⟨-, right, across⟩ := List.pairwise_append.1 sep.gaps
  have left : x ∈ cover l → ¬ (⟨h.base, n⟩ : Span).Has x := by
    rintro ⟨g, hg, -, hi⟩ ⟨lo, -⟩
    have gap := across g hg h List.mem_cons_self
    exact absurd (lt_of_lt_of_le (hi.trans gap) lo) (lt_irrefl _)
  have later : x ∈ cover r → ¬ (⟨h.base, n⟩ : Span).Has x := by
    rintro ⟨g, hg, lo, -⟩ ⟨-, hi⟩
    have gap := (List.pairwise_cons.1 right).1 g hg
    simp only [Span.stop] at gap hi
    omega
  rw [mem_cover_append, mem_cover_append, SoiExercises.Lib.mem_cover_shrink fits, mem_cover_append,
    mem_cover_cons]
  constructor
  · rintro (before | ⟨inside, rest⟩ | after)
    · exact ⟨.inl before, left before⟩
    · exact ⟨.inr (.inl inside), rest⟩
    · exact ⟨.inr (.inr after), later after⟩
  · rintro ⟨before | inside | after, rest⟩
    · exact .inl before
    · exact .inr (.inl ⟨inside, rest⟩)
    · exact .inr (.inr after)

end Shrink

section Heads

/-- `join` keeps the start of its first span. -/
theorem join_head : ∃ h l, join g r = h :: l ∧ h.base = g.base := by
  cases r with
  | nil => exact ⟨g, [], rfl, rfl⟩
  | cons h r =>
    rw [join]
    split
    · cases r with
      | nil => exact ⟨g.union h, [], rfl, rfl⟩
      | cons k r =>
        rw [joinNext]
        split
        · exact ⟨(g.union h).union k, r, rfl, rfl⟩
        · exact ⟨g.union h, k :: r, rfl, rfl⟩
    · exact ⟨g, joinNext h r, rfl, rfl⟩

theorem insertAfter_head {b : Span} : ∃ h l, insertAfter b g r = h :: l ∧ h.base = g.base := by
  cases r with
  | nil => exact join_head
  | cons h r =>
    rw [insertAfter]
    split
    · exact ⟨g, _, rfl, rfl⟩
    · exact join_head

/-- After an insertion the list does not start above the inserted span. -/
theorem insertSpan_head {b : Span} : ∃ h r, insertSpan b l = h :: r ∧ h.base ≤ b.base := by
  cases l with
  | nil => exact ⟨b, [], rfl, le_refl _⟩
  | cons g r =>
    rw [insertSpan]
    split
    · obtain ⟨h, l, same, base⟩ := join_head (g := b) (r := g :: r)
      exact ⟨h, l, same, base.le⟩
    · obtain ⟨h, l, same, base⟩ := insertAfter_head (b := b) (g := g) (r := r)
      exact ⟨h, l, same, by omega⟩

end Heads

section Nonempty

theorem joinNext_nonempty (nonempty : ∀ k ∈ g :: r, 0 < k.len) : ∀ k ∈ joinNext g r, 0 < k.len := by
  cases r with
  | nil => exact nonempty
  | cons h r =>
    rw [joinNext]
    split
    · simp only [List.forall_mem_cons, Span.union] at nonempty ⊢
      exact ⟨by omega, nonempty.2.2⟩
    · exact nonempty

theorem join_nonempty (nonempty : ∀ k ∈ g :: r, 0 < k.len) : ∀ k ∈ join g r, 0 < k.len := by
  cases r with
  | nil => exact nonempty
  | cons h r =>
    obtain ⟨posg, rest⟩ := List.forall_mem_cons.1 nonempty
    obtain ⟨posh, posr⟩ := List.forall_mem_cons.1 rest
    rw [join]
    split
    · apply joinNext_nonempty
      refine List.forall_mem_cons.2 ⟨?_, posr⟩
      show 0 < g.len + h.len
      omega
    · exact List.forall_mem_cons.2 ⟨posg, joinNext_nonempty rest⟩

theorem insertAfter_nonempty {b : Span} (pos : 0 < b.len) (nonempty : ∀ k ∈ g :: r, 0 < k.len) :
    ∀ k ∈ insertAfter b g r, 0 < k.len := by
  induction r generalizing g with
  | nil =>
    apply join_nonempty
    exact List.forall_mem_cons.2 ⟨nonempty g List.mem_cons_self, by simpa using pos⟩
  | cons h r ih =>
    obtain ⟨posg, rest⟩ := List.forall_mem_cons.1 nonempty
    rw [insertAfter]
    split
    · exact List.forall_mem_cons.2 ⟨posg, ih rest⟩
    · apply join_nonempty
      exact List.forall_mem_cons.2 ⟨posg, List.forall_mem_cons.2 ⟨pos, rest⟩⟩

/-- Insertion of a non-empty span makes no empty one. -/
theorem insertSpan_nonempty {b : Span} (pos : 0 < b.len) (nonempty : ∀ k ∈ l, 0 < k.len) :
    ∀ k ∈ insertSpan b l, 0 < k.len := by
  cases l with
  | nil => simpa [insertSpan, join] using pos
  | cons h r =>
    rw [insertSpan]
    split
    · apply join_nonempty
      exact List.forall_mem_cons.2 ⟨pos, nonempty⟩
    · exact insertAfter_nonempty pos nonempty

theorem shrink_nonempty (fits : n ≤ h.len) : ∀ k ∈ h.shrink n, 0 < k.len := by
  unfold Span.shrink
  split
  · exact fun k hk => absurd hk List.not_mem_nil
  · intro k hk
    obtain rfl := List.mem_singleton.1 hk
    show 0 < h.len - n
    omega

end Nonempty

theorem mem_cover_perm (perm : l.Perm r) : x ∈ cover l ↔ x ∈ cover r := by
  simp only [cover, Set.mem_ofPred_eq, perm.mem_iff]

end SoiExercises.Lib
