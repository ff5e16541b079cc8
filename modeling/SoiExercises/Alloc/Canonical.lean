import SoiExercises.Lib.Run
import SoiExercises.Alloc.HoleList

/-!
# The hole list is the picture of free memory

MM's use of the allocator as a transition system: the requests, the returns of blocks it holds, the
choice of the algorithm and changes of the process table, in any order. `Accounts` says that the
memory of `mem_init` is at each moment divided between the hole list, which is separated, and the
blocks handed out. Swapping has not been turned on, so every hole is below `swap_base` and `swap_out`
finds nothing.
-/

namespace SoiExercises.Alloc

open SoiExercises.Lib

namespace Mem

variable {cfg : Config} {s t : Mem cfg} {used free l : List Nat} {prev : Option Nat}

theorem findSwap_low {size fuel : Nat} {p : Option Nat} (listed : Listed s.next p l) (enough : l.length < fuel)
    (low : ∀ i ∈ l, (s.span i).base < s.swapBase) : s.findSwap size fuel prev p = .ok none := by
  induction l generalizing p prev fuel with
  | nil =>
    obtain ⟨fuel, rfl⟩ : ∃ n, fuel = n + 1 := ⟨fuel - 1, by simp at enough; omega⟩
    obtain rfl := seg_nil.1 listed
    rfl
  | cons z l ih =>
    obtain ⟨fuel, rfl⟩ : ∃ n, fuel = n + 1 := ⟨fuel - 1, by simp at enough; omega⟩
    obtain ⟨rfl, rest⟩ := seg_cons.1 listed
    have lowz : (s.hole z).base < s.swapBase := low z List.mem_cons_self
    rw [findSwap, if_neg (by omega)]
    exact ih rest (by simpa using enough) fun i hi => low i (List.mem_cons_of_mem z hi)

/-- Without a hole in the swap area no process can be swapped out. -/
theorem swapOut_low (h : HoleList s used free) (low : ∀ i ∈ used, (s.span i).base < s.swapBase) :
    s.swapOut = .ok (s, false) := by
  have noPlace (rmp : UserSlot cfg) : s.swapPlace rmp = .ok none := by
    unfold swapPlace
    split
    · exact findSwap_low h.holes (Nat.lt_succ_of_le h.length_le) low
    · rfl
  unfold swapOut
  generalize s.outswap = rmp
  induction rmp using swapOutAfter.induct s with
  | case1 rmp ih =>
    rw [swapOutAfter, noPlace, ok_bind]
    dsimp only
    split
    · rename_i more
      exact ih more
    · rfl

/-- The change of the table and the list by a bite of `clicks` at `base`. -/
def Bitten (s : Mem cfg) (used : List Nat) (clicks : Nat) (t : Mem cfg) (base : Nat) : Prop :=
  ∃ l x r used' free', used = l ++ x :: r ∧ base = (s.span x).base ∧ clicks ≤ (s.span x).len ∧
    s.Frame t ∧ HoleList t used' free' ∧
    used'.map t.span = l.map s.span ++ ((s.span x).shrink clicks ++ r.map s.span)

/-- A pass of either algorithm while swapping is off. -/
theorem pass_low {algorithm : Algorithm} {clicks : Nat} {r : Option (Mem cfg × Nat)} (h : HoleList s used free)
    (low : ∀ i ∈ used, (s.span i).base < s.swapBase) (passed : s.pass clicks algorithm = .ok r) :
    s.Bites used clicks (.ok r) := by
  cases algorithm with
  | first => exact passed ▸ pass_first_bites h
  | worst =>
    cases used with
    | nil =>
      -- the candidate is `NIL_HOLE`
      have none : s.holeHead = none := seg_nil.1 h.holes
      rw [pass, none] at passed
      cases passed
    | cons x used =>
      have first : s.HeadOrdinary := ⟨x, (seg_cons.1 h.holes).1, low x List.mem_cons_self⟩
      exact passed ▸ pass_worst_bites h first

/-- A completed `alloc_mem` is a single pass while swapping is off. -/
theorem allocLoop_pass {algorithm : Algorithm} {clicks : Nat} {result : Option Nat} (h : HoleList s used free)
    (low : ∀ i ∈ used, (s.span i).base < s.swapBase)
    (done : allocLoop algorithm clicks s = .ok (t, result)) :
    (∃ base, result = some base ∧ s.pass clicks algorithm = .ok (some (t, base))) ∨ (result = none ∧ t = s) := by
  cases passed : s.pass clicks algorithm with
  | error fault =>
    rw [allocLoop_fault passed] at done
    cases done
  | ok r =>
    cases r with
    | some r =>
      rw [allocLoop_serve passed] at done
      obtain ⟨rfl, rfl⟩ := Prod.mk.inj (Except.ok.inj done)
      exact .inl ⟨r.2, rfl, rfl⟩
    | none =>
      rw [allocLoop_swap passed, swapOut_low h low] at done
      obtain ⟨rfl, rfl⟩ := Prod.mk.inj (Except.ok.inj done)
      exact .inr ⟨rfl, rfl⟩

/-- What a completed `alloc_mem` does while swapping is off. -/
theorem allocLoop_low {algorithm : Algorithm} {clicks : Nat} {result : Option Nat} (h : HoleList s used free)
    (low : ∀ i ∈ used, (s.span i).base < s.swapBase)
    (done : allocLoop algorithm clicks s = .ok (t, result)) :
    (∃ base, result = some base ∧ s.Bitten used clicks t base) ∨ (result = none ∧ t = s) := by
  rcases allocLoop_pass h low done with ⟨base, rfl, passed⟩ | same
  · rcases ((pass_low h low passed).serves h).1 with
      ⟨l, x, r, u, used', free', split, -, fits, served, frame, hl, spans⟩ | ⟨served, -⟩
    · obtain ⟨rfl, rfl⟩ := Prod.mk.inj (Option.some.inj (Except.ok.inj served))
      exact .inl ⟨_, rfl, l, x, r, used', free', split, rfl, fits, frame, hl, spans⟩
    · cases served
  · exact .inr same

/-- The memory `M` is divided between the hole list and the blocks `out`. -/
structure Accounts (M : Set Nat) (s : Mem cfg) (used free : List Nat) (out : List Span) : Prop where
  table : HoleList s used free
  separated : Separated (used.map s.span)
  total : ∀ x, x ∈ M ↔ x ∈ cover (used.map s.span) ∨ x ∈ cover out
  disjoint : ∀ x, x ∈ cover out → x ∉ cover (used.map s.span)
  nonempty : ∀ b ∈ out, 0 < b.len
  apart : out.Pairwise Span.Avoids
  below : ∀ x ∈ M, x < s.swapBase

namespace Accounts

variable {M : Set Nat} {out : List Span}

theorem low (h : Accounts M s used free out) : ∀ i ∈ used, (s.span i).base < s.swapBase := by
  intro i hi
  have member : s.span i ∈ used.map s.span := List.mem_map_of_mem hi
  refine h.below _ ((h.total _).2 (.inl ⟨_, member, ?_⟩))
  exact Span.has_base (h.separated.nonempty _ member)

/-- A served request: the block is taken from the holes. -/
theorem bitten {clicks base : Nat} (h : Accounts M s used free out) (pos : 0 < clicks)
    (bitten : s.Bitten used clicks t base) :
    ∃ used' free', Accounts M t used' free' (⟨base, clicks⟩ :: out) := by
  obtain ⟨l, x, r, used', free', rfl, rfl, fits, frame, table, spans⟩ := bitten
  have sep := h.separated
  have total := h.total
  have disjoint := h.disjoint
  rw [List.map_append, List.map_cons] at sep total disjoint
  have remaining (y : Nat) := sep.mem_cover_shrink (x := y) fits
  have inside : ∀ {y}, (⟨(s.span x).base, clicks⟩ : Span).Has y →
      y ∈ cover (l.map s.span ++ s.span x :: r.map s.span) := by
    intro y hy
    refine ⟨s.span x, by simp, hy.1, lt_of_lt_of_le hy.2 ?_⟩
    exact Nat.add_le_add_left fits _
  refine ⟨used', free', table, ?_, fun y => ?_, fun y hy => ?_, ?_, ?_, ?_⟩
  · rw [spans]
    exact sep.shrink fits
  · rw [spans, remaining, mem_cover_cons, total]
    constructor
    · rintro (old | held)
      · by_cases new : (⟨(s.span x).base, clicks⟩ : Span).Has y
        · exact .inr (.inl new)
        · exact .inl ⟨old, new⟩
      · exact .inr (.inr held)
    · rintro (⟨old, -⟩ | new | held)
      · exact .inl old
      · exact .inl (inside new)
      · exact .inr held
  · rw [spans, remaining]
    rintro ⟨old, other⟩
    rcases mem_cover_cons.1 hy with new | held
    · exact other new
    · exact disjoint y held old
  · exact List.forall_mem_cons.2 ⟨pos, h.nonempty⟩
  · exact List.pairwise_cons.2 ⟨fun b hb y new held => disjoint y ⟨b, hb, held⟩ (inside new), h.apart⟩
  · rw [frame.swapBase]
    exact h.below

/-- A block outside the holes that is freed becomes memory of the holes. -/
theorem freeMem {b : Span} (h : Accounts M s used free out) (pos : 0 < b.len)
    (avoids : ∀ x, b.Has x → x ∉ cover (used.map s.span)) (done : s.freeMem b.base b.len = .ok t) :
    ∃ used' free', HoleList t used' free' ∧ Separated (used'.map t.span) ∧
      ∀ x, x ∈ cover (used'.map t.span) ↔ b.Has x ∨ x ∈ cover (used.map s.span) := by
  cases free with
  | nil =>
    -- the hole table is full
    have none : s.freeSlots = none := seg_nil.1 h.table.slots
    rw [Mem.freeMem, if_neg (by omega), none] at done
    cases done
  | cons new free =>
    obtain ⟨u, used', free', freed, table, -, spans⟩ := h.table.freeMem pos
    obtain rfl := Except.ok.inj (freed.symm.trans done)
    refine ⟨used', free', table, ?_, fun x => ?_⟩
    · rw [spans]
      exact h.separated.insertSpan pos avoids
    · rw [spans]
      exact mem_cover_insertSpan

/-- A returned block goes back to the holes. -/
theorem freed {b : Span} (h : Accounts M s used free out) (held : b ∈ out)
    (done : s.freeMem b.base b.len = .ok t) : ∃ used' free', Accounts M t used' free' (out.erase b) := by
  have perm := List.perm_cons_erase held
  have avoids : ∀ x, b.Has x → x ∉ cover (used.map s.span) := fun x hx => h.disjoint x ⟨b, held, hx⟩
  obtain ⟨first, apart⟩ := List.pairwise_cons.1 ((perm.pairwise_iff Span.Avoids.symm).1 h.apart)
  obtain ⟨used', free', table, separated, covered⟩ := h.freeMem (h.nonempty b held) avoids done
  refine ⟨used', free', table, separated, fun x => ?_, fun x hx => ?_, fun c hc => ?_, apart, ?_⟩
  · rw [h.total, covered, mem_cover_perm perm, mem_cover_cons]
    tauto
  · rw [covered]
    rintro (new | old)
    · obtain ⟨c, hc, hcx⟩ := hx
      exact first c hc x new hcx
    · exact h.disjoint x ((mem_cover_perm perm).2 (mem_cover_cons.2 (.inr hx))) old
  · exact h.nonempty c (List.mem_of_mem_erase hc)
  · rw [(freeMem_frame t done).swapBase]
    exact h.below

/-- The accounts are about the hole lists and `swap_base` only. -/
theorem of_eq (h : Accounts M s used free out) (hole : t.hole = s.hole) (holeHead : t.holeHead = s.holeHead)
    (freeSlots : t.freeSlots = s.freeSlots) (swapBase : t.swapBase = s.swapBase) :
    Accounts M t used free out := by
  have next : t.next = s.next := by
    unfold Mem.next
    rw [hole]
  have span : t.span = s.span := by
    unfold Mem.span
    rw [hole]
  refine ⟨⟨?_, ?_, h.table.nodup, h.table.inTable⟩, ?_, ?_, ?_, h.nonempty, h.apart, ?_⟩
  · rw [next, holeHead]
    exact h.table.holes
  · rw [next, freeSlots]
    exact h.table.slots
  · rw [span]
    exact h.separated
  · rw [span]
    exact h.total
  · rw [span]
    exact h.disjoint
  · rw [swapBase]
    exact h.below

/-- The hole list of `Accounts` is that of the free memory. -/
theorem cover_eq (h : Accounts M s used free out) : cover (used.map s.span) = M \ cover out := by
  ext x
  rw [Set.mem_sdiff, h.total]
  constructor
  · exact fun hx => ⟨.inl hx, fun held => h.disjoint x held hx⟩
  · rintro ⟨hx | held, free⟩
    · exact hx
    · exact absurd held free

end Accounts

theorem initSlots_table : HoleList s.initSlots [] (List.range cfg.NR_HOLES) := by
  have linked : ∀ n k, k + n = cfg.NR_HOLES →
      Listed s.initSlots.next (if k < cfg.NR_HOLES then some k else none) (List.range' k n) := by
    intro n
    induction n with
    | zero =>
      intro k hk
      rw [if_neg (by omega)]
      rfl
    | succ n ih =>
      intro k hk
      rw [if_pos (by omega)]
      exact ⟨rfl, ih (k + 1) (by omega)⟩
  have size : 0 < cfg.NR_HOLES := by
    have := cfg.low_user
    unfold Config.NR_HOLES
    omega
  refine ⟨rfl, ?_, List.nodup_range, fun i hi => List.mem_range.1 hi⟩
  have slots := linked cfg.NR_HOLES 0 (by omega)
  rw [if_pos size, ← List.range_eq_range'] at slots
  exact slots

/-- A chunk that is entered while nothing has been handed out. -/
theorem Accounts.chunk {M : Set Nat} {b : Span} (h : Accounts M s used free []) (pos : 0 < b.len)
    (new : ∀ x, b.Has x → x ∉ M) (freed : s.freeMem b.base b.len = .ok t) :
    ∃ used' free', Accounts (M ∪ {x | b.Has x}) { t with swapBase := max t.swapBase b.stop } used' free' [] := by
  have avoids : ∀ x, b.Has x → x ∉ cover (used.map s.span) :=
    fun x hx old => new x hx ((h.total x).2 (.inl old))
  obtain ⟨used', free', table, separated, covered⟩ := h.freeMem pos avoids freed
  refine ⟨used', free', ⟨table.holes, table.slots, table.nodup, table.inTable⟩, separated, fun x => ?_, ?_, ?_, .nil, ?_⟩
  · show x ∈ M ∨ b.Has x ↔ x ∈ cover (used'.map t.span) ∨ x ∈ cover []
    rw [covered, h.total]
    tauto
  · exact fun x hx => absurd hx mem_cover_nil.1
  · exact fun c hc => absurd hc List.not_mem_nil
  · have base := (freeMem_frame t freed).swapBase
    rintro x (old | ⟨-, hi⟩)
    · exact lt_of_lt_of_le (base ▸ h.below x old) (le_max_left _ _)
    · exact lt_of_lt_of_le hi (le_max_right _ _)

/-- The chunks behind one that has been entered are still new. -/
theorem fresh_chunks {M : Set Nat} {b : Span} {chunks : List Span} (first : ∀ c ∈ chunks, b.Avoids c)
    (fresh : ∀ c ∈ chunks, ∀ x, c.Has x → x ∉ M) : ∀ c ∈ chunks, ∀ x, c.Has x → x ∉ M ∪ {x | b.Has x} := by
  rintro c hc x hx (old | hb)
  · exact fresh c hc x hx old
  · exact first c hc x hb hx

/-- What a hole list from which nothing has been handed out accounts for, at the end of `addChunks`. -/
theorem addChunks_accounts {M : Set Nat} {chunks : List Span} (h : Accounts M s used free [])
    (nonempty : ∀ b ∈ chunks, 0 < b.len) (apart : chunks.Pairwise Span.Avoids)
    (fresh : ∀ b ∈ chunks, ∀ x, b.Has x → x ∉ M) (done : s.addChunks chunks = .ok t) :
    ∃ used' free', Accounts (M ∪ cover chunks) t used' free' [] := by
  induction chunks generalizing M s used free with
  | nil =>
    obtain rfl := Except.ok.inj done
    have same : M ∪ cover [] = M := by
      ext x
      simp
    rw [same]
    exact ⟨used, free, h⟩
  | cons b chunks ih =>
    obtain ⟨pos, nonempty⟩ := List.forall_mem_cons.1 nonempty
    obtain ⟨first, apart⟩ := List.pairwise_cons.1 apart
    obtain ⟨new, fresh⟩ := List.forall_mem_cons.1 fresh
    rw [addChunks, if_neg (by omega)] at done
    obtain ⟨u, freed, done⟩ := bind_eq_ok.1 done
    obtain ⟨used', free', added⟩ := h.chunk pos new freed
    obtain ⟨used'', free'', accounts⟩ := ih added nonempty apart (fresh_chunks first fresh) done
    have same : M ∪ {x | b.Has x} ∪ cover chunks = M ∪ cover (b :: chunks) := by
      ext x
      simp [or_assoc]
    exact ⟨used'', free'', same ▸ accounts⟩

/-- Before the first chunk there is no memory. -/
theorem initSlots_accounts : Accounts (cover []) s.initSlots [] (List.range cfg.NR_HOLES) [] := by
  refine ⟨initSlots_table, .nil, fun x => ?_, ?_, ?_, .nil, ?_⟩
  · simp
  · exact fun x hx => absurd hx mem_cover_nil.1
  · exact fun c hc => absurd hc List.not_mem_nil
  · exact fun x hx => absurd hx mem_cover_nil.1

/-- After `mem_init` all the memory is in holes. -/
theorem memInit_accounts {chunks : List Span} (nonempty : ∀ b ∈ chunks, 0 < b.len)
    (apart : chunks.Pairwise Span.Avoids) (done : s.memInit chunks = .ok t) :
    ∃ used free, Accounts (cover chunks) t used free [] := by
  obtain ⟨u, added, done⟩ := bind_eq_ok.1 done
  obtain rfl := pure_eq_ok.1 done
  obtain ⟨used, free, h⟩ := addChunks_accounts initSlots_accounts nonempty apart
    (fun _ _ x _ => mem_cover_nil.1) added
  have same : cover [] ∪ cover chunks = cover chunks := by
    ext x
    simp
  rw [same] at h
  refine ⟨used, free, ⟨h.table.holes, h.table.slots, h.table.nodup, h.table.inTable⟩, h.separated, h.total,
    h.disjoint, h.nonempty, h.apart, fun x hx => ?_⟩
  exact Nat.lt_succ_of_lt (h.below x hx)

end Mem

/-- What MM does with its memory. -/
inductive Event where
  | alloc (clicks : Nat)
  | free (block : Span)
  | worstFit (algorithm : Int)
  | processes (mproc : Nat → Mproc)

/-- A completed call, with the blocks handed out and not yet returned. A request is for at least one
click, and a block is returned as it was handed out. -/
inductive Step {cfg : Config} : Allocator cfg × List Span → Event → Allocator cfg × List Span → Prop
  | served {a a' : Allocator cfg} {out : List Span} {clicks base : Nat} : 1 ≤ clicks →
      a.allocMem clicks = .ok (a', some base) → Step (a, out) (.alloc clicks) (a', ⟨base, clicks⟩ :: out)
  | noMem {a a' : Allocator cfg} {out : List Span} {clicks : Nat} :
      a.allocMem clicks = .ok (a', none) → Step (a, out) (.alloc clicks) (a', out)
  | free {a a' : Allocator cfg} {out : List Span} {b : Span} : b ∈ out →
      a.freeMem b.base b.len = .ok a' → Step (a, out) (.free b) (a', out.erase b)
  | worstFit {a : Allocator cfg} {out : List Span} {algorithm : Int} :
      Step (a, out) (.worstFit algorithm) ((a.doWorstFit algorithm).1, out)
  | processes {a : Allocator cfg} {out : List Span} {mproc : Nat → Mproc} :
      Step (a, out) (.processes mproc) ({ a with mem := { a.mem with mproc := mproc } }, out)

/-- The list from `hole_head` is `holes`. -/
def Mem.Lists {cfg : Config} (s : Mem cfg) (holes : List Span) : Prop :=
  ∃ used, Listed s.next s.holeHead used ∧ holes = used.map s.span

/-- `holes` is the list, in increasing address order, of the maximal intervals of `M`. -/
def Pictures (holes : List Span) (M : Set Nat) : Prop :=
  holes.Pairwise (fun g h => g.base < h.base) ∧ ∀ h, h ∈ holes ↔ MaximalIn M h

/-- The memory `M` is accounted for, whichever slots the lists use. -/
def Accounted {cfg : Config} (M : Set Nat) (st : Allocator cfg × List Span) : Prop :=
  ∃ used free, Mem.Accounts M st.1.mem used free st.2

variable {cfg : Config} {M : Set Nat}

/-- **One call keeps the accounts.** -/
theorem Accounted.step {st st' : Allocator cfg × List Span} {e : Event} (h : Accounted M st)
    (step : Step st e st') : Accounted M st' := by
  obtain ⟨used, free, h⟩ := h
  cases step with
  | served pos done =>
    obtain ⟨⟨mem, result⟩, looped, done⟩ := bind_eq_ok.1 done
    obtain ⟨rfl, rfl⟩ := Prod.mk.inj (pure_eq_ok.1 done)
    rcases Mem.allocLoop_low h.table h.low looped with ⟨base, same, bitten⟩ | ⟨none, -⟩
    · obtain rfl := Option.some.inj same
      exact h.bitten pos bitten
    · cases none
  | noMem done =>
    obtain ⟨⟨mem, result⟩, looped, done⟩ := bind_eq_ok.1 done
    obtain ⟨rfl, rfl⟩ := Prod.mk.inj (pure_eq_ok.1 done)
    rcases Mem.allocLoop_low h.table h.low looped with ⟨base, some, -⟩ | ⟨-, rfl⟩
    · cases some
    · exact ⟨used, free, h⟩
  | free held done =>
    obtain ⟨mem, freed, done⟩ := bind_eq_ok.1 done
    obtain rfl := pure_eq_ok.1 done
    exact h.freed held freed
  | @worstFit a out algorithm =>
    refine ⟨used, free, ?_⟩
    show Mem.Accounts M (a.doWorstFit algorithm).1.mem used free out
    unfold Allocator.doWorstFit
    split
    · exact h
    · split
      · exact h
      · exact h
  | processes => exact ⟨used, free, h.of_eq rfl rfl rfl rfl⟩

/-- The list of holes that `Accounts` describes. -/
theorem Accounted.holes {a : Allocator cfg} {out : List Span} (h : Accounted M (a, out)) :
    ∃ holes, a.mem.Lists holes ∧ Separated holes ∧ cover holes = M \ cover out := by
  obtain ⟨used, free, h⟩ := h
  exact ⟨used.map a.mem.span, ⟨used, h.table.holes, rfl⟩, h.separated, h.cover_eq⟩

theorem pictures_of_separated {holes : List Span} (sep : Separated holes) : Pictures holes (cover holes) := by
  refine ⟨sep.gaps.imp fun {g h} gap => ?_, fun h => sep.mem_iff⟩
  unfold Span.stop at gap
  omega

/-- The list from `hole_head` is determined by the state. -/
theorem Mem.Lists.unique {s : Mem cfg} {holes holes' : List Span} (h : s.Lists holes) (h' : s.Lists holes') :
    holes = holes' := by
  obtain ⟨used, listed, rfl⟩ := h
  obtain ⟨used', listed', rfl⟩ := h'
  rw [listed.unique listed']

/-- **The hole list is the canonical picture of free memory** after any sequence of requests, returns and
changes of the algorithm: the maximal intervals of the memory that `mem_init` found, less the blocks
handed out, which are disjoint parts of that memory. When all of them are back, the list is the
initial one. -/
theorem hole_list_canonical {boot mem : Mem cfg} {algorithm : Algorithm} {a : Allocator cfg}
    {chunks out : List Span} {es : List Event} (nonempty : ∀ b ∈ chunks, 0 < b.len)
    (apart : chunks.Pairwise Span.Avoids) (init : boot.memInit chunks = .ok mem)
    (run : Run Step (⟨mem, algorithm⟩, []) es (a, out)) :
    (∃ holes, a.mem.Lists holes ∧ Pictures holes (cover chunks \ cover out)) ∧
      out.Pairwise Span.Avoids ∧ cover out ⊆ cover chunks ∧
      (out = [] → ∀ holes, mem.Lists holes → a.mem.Lists holes) := by
  have start : Accounted (cover chunks) (⟨mem, algorithm⟩, []) := Mem.memInit_accounts nonempty apart init
  have accounts : Accounted (cover chunks) (a, out) := run.invariant Accounted.step start
  obtain ⟨holes₀, lists₀, sep₀, cover₀⟩ := start.holes
  obtain ⟨holes, lists, sep, covered⟩ := accounts.holes
  obtain ⟨used, free, books⟩ := accounts
  refine ⟨⟨holes, lists, covered ▸ pictures_of_separated sep⟩, books.apart, ?_, ?_⟩
  · exact fun x hx => (books.total x).2 (.inr hx)
  · rintro rfl holes' lists'
    have same : holes₀ = holes := sep₀.ext sep (cover₀.trans covered.symm)
    rw [lists'.unique lists₀, same]
    exact lists

/-- Two process slots and four hole slots. -/
def small : Config := ⟨2, 1, by decide⟩

theorem small_user : small.LOW_USER ≤ 1 ∧ 1 < small.NR_PROCS := by decide

/-- Memory before `mem_init`. -/
def unset : Mem small where
  hole := fun _ => ⟨none, 0, 0⟩
  holeHead := none
  freeSlots := none
  swapBase := 0
  mproc := fun _ => ⟨∅, ⟨0, 0, 0⟩, ⟨0, 0, 0⟩⟩
  outswap := ⟨1, small_user⟩

/-- Two clicks of a chunk of five are handed out by the first fit. -/
theorem small_run : ∃ (mem : Mem small) (a : Allocator small), unset.memInit [⟨10, 5⟩] = .ok mem ∧
    Run Step ((⟨mem, .first⟩ : Allocator small), []) [.alloc 2] (a, [⟨10, 2⟩]) := by
  obtain ⟨mem, init, passed⟩ : ∃ mem, unset.memInit [⟨10, 5⟩] = .ok mem ∧
      ∃ t, mem.pass 2 .first = .ok (some (t, 10)) := ⟨_, rfl, _, rfl⟩
  obtain ⟨t, passed⟩ := passed
  have served : (⟨mem, .first⟩ : Allocator small).allocMem 2 = .ok (⟨t, .first⟩, some 10) := by
    unfold Allocator.allocMem
    rw [Mem.allocLoop_serve passed]
    rfl
  exact ⟨mem, ⟨t, .first⟩, init, Run.single (.served (by decide) served)⟩

theorem hole_list_canonical_bite : ∃ a : Allocator small,
    (∃ holes, a.mem.Lists holes ∧ Pictures holes (cover [⟨10, 5⟩] \ cover [⟨10, 2⟩])) ∧
      [(⟨10, 2⟩ : Span)].Pairwise Span.Avoids ∧ cover [⟨10, 2⟩] ⊆ cover [⟨10, 5⟩] := by
  obtain ⟨mem, a, init, run⟩ := small_run
  obtain ⟨pictures, apart, inside, -⟩ :=
    hole_list_canonical (by decide) (List.pairwise_singleton _ _) init run
  exact ⟨a, pictures, apart, inside⟩

end SoiExercises.Alloc
