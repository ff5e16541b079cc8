import SoiExercises.Alloc.Canonical

/-!
# The slots of the hole table

Whatever MM does, each slot of the table is on the hole list or on the list of unused ones (`Partitioned`). A hole
ends where a block that has been handed out begins or where a chunk of `mem_init` ends, so there are at most as
many holes as blocks and chunks together, and `free_mem` finds an unused slot while these are fewer than the slots.
-/

namespace SoiExercises.Alloc

open SoiExercises.Lib

namespace Mem

variable {cfg : Config} {s t : Mem cfg} {used free : List Nat}

/-- Every slot of the table is on exactly one of the two lists, and both end in `NIL_HOLE`. -/
def Partitioned (s : Mem cfg) : Prop :=
  ∃ used free, Listed s.next s.holeHead used ∧ Listed s.next s.freeSlots free ∧
    (used ++ free).Perm (List.range cfg.NR_HOLES)

namespace Partitioned

theorem of_table (h : HoleList s used free) (all : (used ++ free).Perm (List.range cfg.NR_HOLES)) : s.Partitioned :=
  ⟨used, free, h.holes, h.slots, all⟩

/-- The lists are the same two whichever way they are found. -/
theorem all (whole : s.Partitioned) (h : HoleList s used free) : (used ++ free).Perm (List.range cfg.NR_HOLES) := by
  obtain ⟨used', free', holes, slots, all⟩ := whole
  rwa [h.holes.unique holes, h.slots.unique slots]

theorem table (whole : s.Partitioned) : ∃ used free, HoleList s used free := by
  obtain ⟨used, free, holes, slots, all⟩ := whole
  refine ⟨used, free, holes, slots, all.nodup_iff.2 List.nodup_range, fun i hi => ?_⟩
  exact List.mem_range.1 (all.mem_iff.1 hi)

theorem of_eq (whole : s.Partitioned) (hole : t.hole = s.hole) (holeHead : t.holeHead = s.holeHead)
    (freeSlots : t.freeSlots = s.freeSlots) : t.Partitioned := by
  have next : t.next = s.next := by
    unfold Mem.next
    rw [hole]
  unfold Partitioned
  rw [next, holeHead, freeSlots]
  exact whole

/-- **`free_mem`** takes a slot and may give some back. -/
theorem freeMem {b : Span} (whole : s.Partitioned) (done : s.freeMem b.base b.len = .ok t) : t.Partitioned := by
  by_cases nothing : b.len = 0
  · rw [Mem.freeMem, if_pos nothing] at done
    obtain rfl := Except.ok.inj done
    exact whole
  · obtain ⟨used, free, h⟩ := whole.table
    cases free with
    | nil =>
      have full : s.freeSlots = none := seg_nil.1 h.slots
      rw [Mem.freeMem, if_neg nothing, full] at done
      cases done
    | cons new free =>
      obtain ⟨u, used', free', freed, table, perm, -⟩ := h.freeMem (Nat.pos_of_ne_zero nothing)
      obtain rfl := Except.ok.inj (freed.symm.trans done)
      exact of_table table (perm.trans (whole.all h))

/-- With fewer holes than slots `free_mem` completes. -/
theorem freeMem_completes (whole : s.Partitioned) (h : HoleList s used free) (room : used.length < cfg.NR_HOLES)
    {b : Span} (pos : 0 < b.len) : ∃ t, s.freeMem b.base b.len = .ok t := by
  cases free with
  | nil =>
    have full := (whole.all h).length_eq
    rw [List.append_nil, List.length_range] at full
    omega
  | cons new free =>
    obtain ⟨t, -, -, freed, -⟩ := h.freeMem pos
    exact ⟨t, freed⟩

/-- **`alloc_mem`** gives the slot of a hole back that is used up. -/
theorem allocLoop {algorithm : Algorithm} {clicks : Nat} {result : Option Nat} (whole : s.Partitioned)
    (h : HoleList s used free) (low : ∀ i ∈ used, (s.span i).base < s.swapBase)
    (done : allocLoop algorithm clicks s = .ok (t, result)) : t.Partitioned := by
  rcases allocLoop_pass h low done with ⟨base, -, passed⟩ | ⟨-, rfl⟩
  · obtain ⟨used', free', table, perm⟩ := ((pass_low h low passed).serves h).2 t base rfl
    exact of_table table (perm.trans (whole.all h))
  · exact whole

/-- At first all the slots are unused. -/
theorem initSlots : s.initSlots.Partitioned := of_table initSlots_table (.refl _)

theorem addChunks {chunks : List Span} (whole : s.Partitioned) (done : s.addChunks chunks = .ok t) :
    t.Partitioned := by
  induction chunks generalizing s with
  | nil =>
    obtain rfl := Except.ok.inj done
    exact whole
  | cons b chunks ih =>
    rw [Mem.addChunks] at done
    split at done
    · obtain rfl := Except.ok.inj done
      exact whole
    · obtain ⟨u, freed, done⟩ := bind_eq_ok.1 done
      refine ih ?_ done
      exact (whole.freeMem freed).of_eq rfl rfl rfl

theorem memInit {chunks : List Span} (done : s.memInit chunks = .ok t) : t.Partitioned := by
  obtain ⟨u, added, done⟩ := bind_eq_ok.1 done
  obtain rfl := pure_eq_ok.1 done
  exact (initSlots.addChunks added).of_eq rfl rfl rfl

end Partitioned

/-- **The holes are counted** by the blocks that have been handed out and the chunks. -/
theorem Accounts.length_le {chunks out : List Span} (h : Accounts (cover chunks) s used free out) :
    used.length ≤ out.length + chunks.length := by
  simpa using h.separated.length_le h.cover_eq

/-- The chunks `entered` have been entered, and there is a slot for each of the others. -/
theorem addChunks_completes {entered chunks : List Span} (h : Accounts (cover entered) s used free [])
    (whole : s.Partitioned) (nonempty : ∀ b ∈ chunks, 0 < b.len) (apart : chunks.Pairwise Span.Avoids)
    (fresh : ∀ b ∈ chunks, ∀ x, b.Has x → x ∉ cover entered)
    (room : entered.length + chunks.length ≤ cfg.NR_HOLES) : ∃ t, s.addChunks chunks = .ok t := by
  induction chunks generalizing s used free entered with
  | nil => exact ⟨s, rfl⟩
  | cons b chunks ih =>
    obtain ⟨pos, nonempty⟩ := List.forall_mem_cons.1 nonempty
    obtain ⟨first, apart⟩ := List.pairwise_cons.1 apart
    obtain ⟨new, fresh⟩ := List.forall_mem_cons.1 fresh
    have counted := h.length_le
    rw [List.length_nil, Nat.zero_add] at counted
    rw [List.length_cons] at room
    obtain ⟨u, freed⟩ := whole.freeMem_completes h.table (by omega) pos
    obtain ⟨used', free', added⟩ := h.chunk pos new freed
    have same : cover entered ∪ {x | b.Has x} = cover (b :: entered) := by
      ext x
      simp [or_comm]
    have rest := fresh_chunks first fresh
    rw [same] at added rest
    rw [Mem.addChunks, if_neg (by omega), freed, ok_bind]
    refine ih added ((whole.freeMem freed).of_eq rfl rfl rfl) nonempty apart rest ?_
    rw [List.length_cons]
    omega

/-- **`mem_init` completes** if the table has a slot for each chunk. -/
theorem memInit_completes {chunks : List Span} (nonempty : ∀ b ∈ chunks, 0 < b.len)
    (apart : chunks.Pairwise Span.Avoids) (room : chunks.length ≤ cfg.NR_HOLES) : ∃ t, s.memInit chunks = .ok t := by
  have empty : Accounts (cover []) s.initSlots [] (List.range cfg.NR_HOLES) [] := initSlots_accounts
  have new : ∀ b ∈ chunks, ∀ x, b.Has x → x ∉ cover [] := fun _ _ x _ => mem_cover_nil.1
  obtain ⟨u, added⟩ := addChunks_completes empty .initSlots nonempty apart new (by simpa using room)
  unfold memInit
  rw [added]
  exact ⟨_, rfl⟩

end Mem

variable {cfg : Config} {M : Set Nat}

/-- The memory is accounted for, and no slot is lost. -/
structure Tracked (M : Set Nat) (st : Allocator cfg × List Span) : Prop where
  accounted : Accounted M st
  partitioned : st.1.mem.Partitioned

/-- **One call loses no slot.** -/
theorem Tracked.step {st st' : Allocator cfg × List Span} {e : Event} (h : Tracked M st) (step : Step st e st') :
    Tracked M st' := by
  refine ⟨h.accounted.step step, ?_⟩
  obtain ⟨⟨used, free, accounts⟩, whole⟩ := h
  cases step with
  | served _ done | noMem done =>
    obtain ⟨⟨mem, result⟩, looped, done⟩ := bind_eq_ok.1 done
    obtain ⟨rfl, rfl⟩ := Prod.mk.inj (pure_eq_ok.1 done)
    exact whole.allocLoop accounts.table accounts.low looped
  | free _ done =>
    obtain ⟨mem, freed, done⟩ := bind_eq_ok.1 done
    obtain rfl := pure_eq_ok.1 done
    exact whole.freeMem freed
  | @worstFit a out algorithm =>
    have same : (a.doWorstFit algorithm).1.mem = a.mem := by
      unfold Allocator.doWorstFit
      split
      · rfl
      · split <;> rfl
    exact same ▸ whole
  | processes => exact whole.of_eq rfl rfl rfl

/-- **The hole table loses no slot, and is large enough** as long as the blocks that have been handed out and the
chunks of `mem_init` are fewer than its slots: `mem_init` completes, and so does the return of each block after any
sequence of requests, returns and changes of the algorithm. -/
theorem hole_table_suffices {boot : Mem cfg} {chunks : List Span} (nonempty : ∀ b ∈ chunks, 0 < b.len)
    (apart : chunks.Pairwise Span.Avoids) :
    (chunks.length ≤ cfg.NR_HOLES → ∃ mem, boot.memInit chunks = .ok mem) ∧
    ∀ (mem : Mem cfg) (algorithm : Algorithm) (es : List Event) (a : Allocator cfg) (out : List Span),
      boot.memInit chunks = .ok mem → Run Step (⟨mem, algorithm⟩, []) es (a, out) →
      a.mem.Partitioned ∧ (∀ holes, a.mem.Lists holes → holes.length ≤ out.length + chunks.length) ∧
        (out.length + chunks.length < cfg.NR_HOLES → ∀ b ∈ out, ∃ a', a.freeMem b.base b.len = .ok a') := by
  refine ⟨Mem.memInit_completes nonempty apart, fun mem algorithm es a out init run => ?_⟩
  have start : Tracked (cover chunks) (⟨mem, algorithm⟩, []) :=
    ⟨Mem.memInit_accounts nonempty apart init, .memInit init⟩
  have tracked : Tracked (cover chunks) (a, out) := run.invariant Tracked.step start
  obtain ⟨⟨used, free, accounts⟩, whole⟩ := tracked
  have counted := accounts.length_le
  refine ⟨whole, ?_, fun room b held => ?_⟩
  · rintro holes ⟨used', listed, rfl⟩
    rw [List.length_map, listed.unique accounts.table.holes]
    exact counted
  · obtain ⟨t, freed⟩ := whole.freeMem_completes accounts.table (lt_of_le_of_lt counted room) (accounts.nonempty b held)
    unfold Allocator.freeMem
    rw [freed]
    exact ⟨_, rfl⟩

/-- Two clicks of a chunk of five are handed out, and can be returned. -/
theorem hole_table_suffices_bite : ∃ a : Allocator small, a.mem.Partitioned ∧ ∃ a', a.freeMem 10 2 = .ok a' := by
  obtain ⟨mem, a, init, run⟩ := small_run
  obtain ⟨whole, -, returns⟩ :=
    (hole_table_suffices (by decide) (List.pairwise_singleton _ _)).2 mem .first _ a _ init run
  exact ⟨a, whole, returns (by decide) ⟨10, 2⟩ List.mem_cons_self⟩

end SoiExercises.Alloc
