import SoiExercises.Alloc.Largest

/-!
# The hole map and its reader

`do_hole_map` writes a length and a base for each hole below `swap_base` and a zero behind them, and copies to
the caller what is before the zero. The `t` command reads until it meets a zero, so it relies on the word that
its buffer held there. Both sides see the buffer as words of four bytes. The room for the map is computed
without a sign, and wraps around for a buffer of less than two words.
-/

namespace SoiExercises.Alloc

open SoiExercises.Lib

/-- `sizeof(phys_clicks)` -/
def sizeofPhysClicks : UInt32 := 4

/-- The words for a hole. -/
def Hole.words (h : Hole) : List Nat := [h.len, h.base]

namespace Mem

variable {cfg : Config}

/-- The loop of `do_hole_map` from the hole `it` on, with `i` words in `buffer`, which holds at least as many as
there are holes. -/
def mapHoles (s : Mem cfg) (size : UInt32) : Nat → List Nat → Option Nat → Result (List Nat)
  | 0, _, _ => .error .endless
  | _ + 1, buffer, none => .ok buffer
  | fuel + 1, buffer, some it =>
    if (s.hole it).base < s.swapBase ∧ buffer.length < (size - 1).toNat then
      s.mapHoles size fuel (buffer ++ (s.hole it).words) (s.hole it).next
    else .ok buffer

/-- Write the hole map to the caller's buffer `b` of `nbytes` bytes, and return the number of holes in it. -/
def doHoleMap (s : Mem cfg) (nbytes : UInt32) (b : List Nat) : Result (List Nat × Nat) := do
  let size := (nbytes - sizeofPhysClicks) / sizeofPhysClicks
  let buffer ← s.mapHoles size (cfg.NR_HOLES + 1) [] s.holeHead
  let i := buffer.length
  let buffer := buffer ++ [0]
  return (buffer.take i ++ b.drop i, i / 2)

end Mem

/-- What `t` reads: a length and a base until the length is zero. It has no result if it leaves the buffer. -/
def readMap : List Nat → Option (List (Nat × Nat))
  | 0 :: _ => some []
  | l :: a :: p => (readMap p).map ((l, a) :: ·)
  | _ => none

/-- The reader finds what `do_hole_map` has announced. -/
def Decodes {cfg : Config} (s : Mem cfg) (used : List Nat) (nbytes : UInt32) (b : List Nat) : Prop :=
  ∃ b' k, s.doHoleMap nbytes b = .ok (b', k) ∧
    readMap b' = some (((used.filter fun x => (s.hole x).base < s.swapBase).take k).map fun x =>
      ((s.hole x).len, (s.hole x).base))

/-- The pairs that fit in `nbytes` bytes together with a word for the zero. -/
def pairsThatFit (nbytes : UInt32) : Nat := (nbytes.toNat - 4) / 8

/-- `do_hole_map` stays inside both buffers, its own with the zero and the caller's, and maps as many of the first
holes below `swap_base` as there is room for. -/
def Truncates {cfg : Config} (s : Mem cfg) (used : List Nat) (nbytes : UInt32) (b : List Nat) : Prop :=
  let ordinary := used.filter fun x => (s.hole x).base < s.swapBase
  let k := min ordinary.length (pairsThatFit nbytes)
  ∃ buffer, s.mapHoles ((nbytes - sizeofPhysClicks) / sizeofPhysClicks) (cfg.NR_HOLES + 1) [] s.holeHead = .ok buffer ∧
    buffer.length < cfg.NR_HOLES * 2 + 1 ∧ 4 * buffer.length ≤ nbytes.toNat ∧
    s.doHoleMap nbytes b = .ok (((ordinary.take k).map s.hole).flatMap Hole.words ++ b.drop (2 * k), k)

/-- The number of holes in the map. -/
def mapped {cfg : Config} (s : Mem cfg) (used : List Nat) (nbytes : UInt32) : Nat :=
  min ((nbytes.toNat / 4 - 1) / 2) (used.filter fun x => (s.hole x).base < s.swapBase).length

section Reader

/-- The reader takes pairs with a length, one after the other. -/
theorem readMap_append (holes : List Hole) (rest : List Nat) (nonempty : ∀ h ∈ holes, h.len ≠ 0) :
    readMap (holes.flatMap Hole.words ++ rest) =
      (readMap rest).map (holes.map (fun h => (h.len, h.base)) ++ ·) := by
  induction holes with
  | nil => simp
  | cons h holes ih =>
    obtain ⟨first, others⟩ := List.forall_mem_cons.1 nonempty
    have step : readMap (h.len :: h.base :: (holes.flatMap Hole.words ++ rest)) =
        (readMap (holes.flatMap Hole.words ++ rest)).map ((h.len, h.base) :: ·) := by
      rw [readMap]
      exact fun zero => absurd zero first
    rw [List.flatMap_cons]
    show readMap (h.len :: h.base :: (holes.flatMap Hole.words ++ rest)) = _
    rw [step, ih others, Option.map_map]
    rfl

/-- The reader stops at once at a zero only. -/
theorem readMap_eq_nil {p : List Nat} : readMap p = some [] ↔ p.head? = some 0 := by
  match p with
  | [] => simp [readMap]
  | [0] => simp [readMap]
  | [n + 1] => simp [readMap]
  | 0 :: a :: p => simp [readMap]
  | (n + 1) :: a :: p => simp [readMap]

end Reader

section Map

variable {cfg : Config} {s : Mem cfg} {used free l : List Nat} {nbytes size : UInt32} {b : List Nat}

/-- The loop maps ordinary holes while there is room. -/
theorem mapHoles_spec {fuel : Nat} {p : Option Nat} (buffer : List Nat) (listed : Listed s.next p l)
    (enough : l.length < fuel) :
    s.mapHoles size fuel buffer p = .ok (buffer ++
      (((s.ordinary l).take (((size - 1).toNat - buffer.length + 1) / 2)).map s.hole).flatMap Hole.words) := by
  induction l generalizing p buffer fuel with
  | nil =>
    obtain ⟨fuel, rfl⟩ : ∃ n, fuel = n + 1 := ⟨fuel - 1, by simp at enough; omega⟩
    obtain rfl := seg_nil.1 listed
    rw [Mem.mapHoles]
    simp [Mem.ordinary]
  | cons z l ih =>
    obtain ⟨fuel, rfl⟩ : ∃ n, fuel = n + 1 := ⟨fuel - 1, by simp at enough; omega⟩
    obtain ⟨rfl, rest⟩ := seg_cons.1 listed
    rw [Mem.mapHoles]
    by_cases low : (s.span z).base < s.swapBase
    · rw [Mem.ordinary_cons_of_low low]
      by_cases room : buffer.length < (size - 1).toNat
      · have further : ((size - 1).toNat - buffer.length + 1) / 2 =
            ((size - 1).toNat - (buffer ++ (s.hole z).words).length + 1) / 2 + 1 := by
          rw [List.length_append]
          show _ = ((size - 1).toNat - (buffer.length + 2) + 1) / 2 + 1
          omega
        rw [if_pos ⟨low, room⟩, further, List.take_succ_cons, List.map_cons, List.flatMap_cons, ← List.append_assoc]
        exact ih _ rest (by simpa using enough)
      · have full : ((size - 1).toNat - buffer.length + 1) / 2 = 0 := by omega
        rw [if_neg fun both => room both.2, full]
        simp
    · rw [if_neg fun both => low both.1, Mem.ordinary_cons_of_high low]
      simp

/-- The words that the loop leaves one for. -/
theorem room_eq (least : 8 ≤ nbytes.toNat) :
    ((nbytes - sizeofPhysClicks) / sizeofPhysClicks - 1).toNat = nbytes.toNat / 4 - 2 := by
  have size : ((nbytes - sizeofPhysClicks) / sizeofPhysClicks).toNat = (nbytes.toNat - 4) / 4 := by
    rw [UInt32.toNat_div, UInt32.toNat_sub_of_le]
    · rfl
    · rw [UInt32.le_iff_toNat_le]
      show 4 ≤ nbytes.toNat
      omega
  rw [UInt32.toNat_sub_of_le, size]
  · show (nbytes.toNat - 4) / 4 - 1 = _
    omega
  · rw [UInt32.le_iff_toNat_le, size]
    show 1 ≤ _
    omega

theorem length_words (holes : List Hole) : (holes.flatMap Hole.words).length = 2 * holes.length := by
  induction holes with
  | nil => rfl
  | cons h holes ih =>
    rw [List.flatMap_cons, List.length_append, ih, List.length_cons]
    show 2 + 2 * holes.length = 2 * (holes.length + 1)
    omega

/-- The words that the loop writes. -/
theorem mapHoles_eq (h : s.HoleList used free) (asc : Ascending (used.map s.span)) :
    s.mapHoles size (cfg.NR_HOLES + 1) [] s.holeHead = .ok
      ((((used.filter fun x => (s.hole x).base < s.swapBase).take (((size - 1).toNat + 1) / 2)).map s.hole).flatMap
        Hole.words) := by
  have enough : used.length < cfg.NR_HOLES + 1 := Nat.lt_succ_of_le h.length_le
  rw [mapHoles_spec [] h.holes enough, Mem.ordinary_eq_filter asc.bases]
  rfl

/-- The answer of `do_hole_map`, given the words that its loop has written. -/
theorem doHoleMap_of_map {buffer : List Nat}
    (done : s.mapHoles ((nbytes - sizeofPhysClicks) / sizeofPhysClicks) (cfg.NR_HOLES + 1) [] s.holeHead = .ok buffer) :
    s.doHoleMap nbytes b = .ok (buffer ++ b.drop buffer.length, buffer.length / 2) := by
  unfold Mem.doHoleMap
  dsimp only
  rw [done, ok_bind, List.take_left]
  rfl

/-- The loop maps the holes that there is room for. -/
theorem mapHoles_mapped (h : s.HoleList used free) (asc : Ascending (used.map s.span)) (least : 8 ≤ nbytes.toNat) :
    s.mapHoles ((nbytes - sizeofPhysClicks) / sizeofPhysClicks) (cfg.NR_HOLES + 1) [] s.holeHead = .ok
      ((((used.filter fun x => (s.hole x).base < s.swapBase).take (mapped s used nbytes)).map s.hole).flatMap
        Hole.words) := by
  have pairs : (nbytes.toNat / 4 - 2 + 1) / 2 = (nbytes.toNat / 4 - 1) / 2 := by omega
  have taken : (used.filter fun x => (s.hole x).base < s.swapBase).take ((nbytes.toNat / 4 - 1) / 2) =
      (used.filter fun x => (s.hole x).base < s.swapBase).take (mapped s used nbytes) := by
    rw [List.take_eq_take_iff]
    unfold mapped
    omega
  rw [mapHoles_eq h asc, room_eq least, pairs, taken]

theorem length_mapped : ((((used.filter fun x => (s.hole x).base < s.swapBase).take (mapped s used nbytes)).map
    s.hole).flatMap Hole.words).length = 2 * mapped s used nbytes := by
  rw [length_words, List.length_map, List.length_take]
  unfold mapped
  omega

/-- **What `do_hole_map` does**: the map goes over the front of the caller's buffer, and the zero does not. -/
theorem doHoleMap_eq (h : s.HoleList used free) (asc : Ascending (used.map s.span)) (least : 8 ≤ nbytes.toNat) :
    s.doHoleMap nbytes b = .ok
      ((((used.filter fun x => (s.hole x).base < s.swapBase).take (mapped s used nbytes)).map s.hole).flatMap
        Hole.words ++ b.drop (2 * mapped s used nbytes), mapped s used nbytes) := by
  rw [doHoleMap_of_map (mapHoles_mapped h asc least), length_mapped, Nat.mul_div_cancel_left _ (by decide)]

/-- The zero behind the map fits in `buffer[NR_HOLES * 2 + 1]`. -/
theorem mapped_le (h : s.HoleList used free) : 2 * mapped s used nbytes < cfg.NR_HOLES * 2 + 1 := by
  have holes := h.length_le
  have some := List.length_filter_le (fun x => decide ((s.hole x).base < s.swapBase)) used
  unfold mapped
  omega

/-- The word behind the map is in the caller's buffer. -/
theorem mapped_lt (least : 8 ≤ nbytes.toNat) : 2 * mapped s used nbytes < nbytes.toNat / 4 := by
  unfold mapped
  omega

/-- **The hole map can be decoded exactly when the caller's buffer held a zero** in the word behind the map. -/
theorem hole_map_decodes (h : s.HoleList used free) (asc : Ascending (used.map s.span)) (least : 8 ≤ nbytes.toNat) :
    Decodes s used nbytes b ↔ b[2 * mapped s used nbytes]? = some 0 := by
  have nonempty : ∀ hole ∈ ((used.filter fun x => (s.hole x).base < s.swapBase).take (mapped s used nbytes)).map s.hole,
      hole.len ≠ 0 := by
    intro hole member
    obtain ⟨x, inside, rfl⟩ := List.mem_map.1 member
    have hole := (List.mem_filter.1 (List.mem_of_mem_take inside)).1
    exact Nat.pos_iff_ne_zero.1 (asc.nonempty (s.span x) (List.mem_map_of_mem hole))
  have read := readMap_append _ (b.drop (2 * mapped s used nbytes)) nonempty
  have stops : readMap (b.drop (2 * mapped s used nbytes)) = some [] ↔ b[2 * mapped s used nbytes]? = some 0 := by
    rw [readMap_eq_nil, List.head?_drop]
  rw [← stops]
  constructor
  · rintro ⟨b', k, done, decoded⟩
    rw [doHoleMap_eq h asc least] at done
    obtain ⟨rfl, rfl⟩ := Prod.mk.inj (Except.ok.inj done)
    rw [read, List.map_map] at decoded
    obtain ⟨rest, behind, same⟩ := Option.map_eq_some_iff.1 decoded
    rw [behind, List.append_right_eq_self.1 same]
  · intro behind
    refine ⟨_, _, doHoleMap_eq h asc least, ?_⟩
    rw [read, behind, List.map_map]
    exact congrArg some (List.append_nil _)

/-- A buffer of four words has room for the first hole. -/
theorem hole_map_decodes_clear : Decodes tied [0, 1, 2, 3] 16 [0, 0, 0, 0] :=
  (hole_map_decodes tied_table tied_ascending (by decide)).2 rfl

/-- In a buffer that was not clear, the reader goes on behind the map. -/
theorem hole_map_stale : tied.HoleList [0, 1, 2, 3] [] ∧ Ascending ([0, 1, 2, 3].map tied.span) ∧
    tied.doHoleMap 16 [9, 9, 9, 9] = .ok ([2, 4, 9, 9], 1) ∧ readMap [2, 4, 9, 9] = none ∧
      ¬ Decodes tied [0, 1, 2, 3] 16 [9, 9, 9, 9] := by
  refine ⟨tied_table, tied_ascending, rfl, rfl, fun decodes => ?_⟩
  cases (hole_map_decodes tied_table tied_ascending (by decide)).1 decodes

/-- In less than eight bytes the room for the loop wraps around. -/
theorem room_wraps (few : nbytes.toNat < 8) :
    2 ≤ ((nbytes - sizeofPhysClicks) / sizeofPhysClicks - 1).toNat := by
  have cases : nbytes.toNat / 4 = 0 ∨ nbytes.toNat / 4 = 1 := by omega
  have size : ((nbytes - sizeofPhysClicks) / sizeofPhysClicks).toNat = (2 ^ 32 - 4 + nbytes.toNat) % 2 ^ 32 / 4 := by
    rw [UInt32.toNat_div, UInt32.toNat_sub]
    rfl
  rw [UInt32.toNat_sub, size]
  show 2 ≤ (2 ^ 32 - 1 + (2 ^ 32 - 4 + nbytes.toNat) % 2 ^ 32 / 4) % 2 ^ 32
  omega

/-- **`do_hole_map` stays inside the caller's buffer exactly when it has at least two words**, or there is nothing
to map. -/
theorem hole_map_truncates (h : s.HoleList used free) (asc : Ascending (used.map s.span)) :
    Truncates s used nbytes b ↔ 8 ≤ nbytes.toNat ∨ ∀ x ∈ used, ¬ (s.hole x).base < s.swapBase := by
  have none : (used.filter fun x => (s.hole x).base < s.swapBase) = [] ↔
      ∀ x ∈ used, ¬ (s.hole x).base < s.swapBase := by simp
  constructor
  · rintro ⟨buffer, done, -, inside, -⟩
    rcases Nat.lt_or_ge nbytes.toNat 8 with few | least
    · -- the first hole alone takes eight bytes
      have room := room_wraps few
      rw [mapHoles_eq h asc] at done
      obtain rfl := Except.ok.inj done
      rw [length_words, List.length_map, List.length_take] at inside
      exact .inr (none.1 (List.length_eq_zero_iff.1 (by omega)))
    · exact .inl least
  · rintro (least | nothing)
    · have room : mapped s used nbytes =
          min (used.filter fun x => (s.hole x).base < s.swapBase).length (pairsThatFit nbytes) := by
        unfold mapped pairsThatFit
        omega
      have own : 2 * mapped s used nbytes < cfg.NR_HOLES * 2 + 1 := mapped_le h
      have caller : 2 * mapped s used nbytes < nbytes.toNat / 4 := mapped_lt least
      refine ⟨_, mapHoles_mapped h asc least, ?_, ?_, ?_⟩
      · rw [length_mapped]
        exact own
      · rw [length_mapped]
        omega
      · rw [← room]
        exact doHoleMap_eq h asc least
    · have empty := none.2 nothing
      have done : s.mapHoles ((nbytes - sizeofPhysClicks) / sizeofPhysClicks) (cfg.NR_HOLES + 1) [] s.holeHead =
          .ok [] := by
        rw [mapHoles_eq h asc, empty, List.take_nil]
        rfl
      refine ⟨[], done, ?_, Nat.zero_le _, ?_⟩
      · exact Nat.succ_pos _
      · rw [doHoleMap_of_map done, empty]
        simp

theorem hole_map_truncates_first : Truncates tied [0, 1, 2, 3] 13 [0, 0, 0] :=
  (hole_map_truncates tied_table tied_ascending).2 (.inl (by decide))

/-- A caller without a buffer gets all the holes. -/
theorem hole_map_overruns : tied.HoleList [0, 1, 2, 3] [] ∧ Ascending ([0, 1, 2, 3].map tied.span) ∧
    tied.doHoleMap 0 [] = .ok ([2, 4, 5, 8, 5, 16], 3) ∧ ¬ Truncates tied [0, 1, 2, 3] 0 [] := by
  refine ⟨tied_table, tied_ascending, rfl, fun stays => ?_⟩
  rcases (hole_map_truncates tied_table tied_ascending).1 stays with least | nothing
  · exact absurd least (by decide)
  · exact nothing 0 (by decide) (by decide)

end Map

end SoiExercises.Alloc
