import SoiExercises.Vfs.Chains

/-!
# No block is lost

RM frees a block only by following the links from a first block to it. Each block that is not empty has
to stay on such a way (`Rooted`): then RM of all the names that LS prints, in any order, gives the disc
that CREATE made (`rm_all_frees`). A link is only lost when COPYTO takes a linked block, which it does
when the data of the block is all zero.
-/

namespace SoiExercises.Vfs

open SoiExercises.Lib

/-- The links from the first block of a file lead to each block that is not empty. -/
def Rooted (v : Volume) : Prop :=
  ∀ b, v.dataBlocks b ≠ {} → ∃ i, v.isINodeFree i = false ∧ Reach v.link (v.target (v.iNodes i).firstBlock) b

namespace Rooted

variable {v v' : Volume} {name : CString} {file : HostFile} {i b : Nat}

theorem fresh {size : UInt64} : Rooted (freshVolume size) := fun _ nonempty => absurd rfl nonempty

/-- **COPYTO keeps the blocks reachable** if it takes only blocks that are linked to nothing. -/
theorem stored (h : Rooted v) (layout : v.superBlock.Layout) (free : v.isINodeFree i)
    (first : v.newFirstBlock ≠ 0) (room : chunks file.content.length ≤ v.freeBlocks.length)
    (unlinked : ∀ b ∈ v.taken file, (v.dataBlocks b).nextBlock = 0) (stored : Stored v name file i v') : Rooted v' := by
  have used := stored.isINodeFree first
  intro b nonempty
  by_cases taken : b ∈ v.taken file
  · refine ⟨i, ?_, ?_⟩
    · rw [used, Function.update_self]
    · have more : file.content ≠ [] := by
        intro empty
        unfold Volume.taken at taken
        rw [empty] at taken
        exact absurd taken List.not_mem_nil
      rw [stored.inode]
      exact (stored.seg layout more room).reach taken
  · rw [stored.outside taken] at nonempty
    obtain ⟨j, usedj, reached⟩ := h b nonempty
    have ne : j ≠ i := by
      rintro rfl
      rw [free] at usedj
      cases usedj
    refine ⟨j, ?_, ?_⟩
    · rw [used, Function.update_of_ne ne]
      exact usedj
    · rw [stored.other ne, Volume.target_eq stored.superBlock]
      refine reached.extend fun k linked => Volume.link_eq stored.superBlock (stored.outside fun taken => ?_)
      exact linked (Volume.link_none (unlinked k taken))

/-- **RM keeps the blocks reachable** that it does not clear. -/
theorem deleted (h : Rooted v) (deleted : Deleted v i v') : Rooted v' := by
  intro b nonempty
  have outside : ¬ Reach v.link (v.target (v.iNodes i).firstBlock) b :=
    fun reached => nonempty (deleted.cleared b reached)
  rw [deleted.kept b outside] at nonempty
  obtain ⟨j, used, reached⟩ := h b nonempty
  have ne : j ≠ i := by
    rintro rfl
    exact outside reached
  refine ⟨j, ?_, ?_⟩
  · rw [deleted.isINodeFree, Function.update_of_ne ne]
    exact used
  · rw [deleted.other ne, Volume.target_eq deleted.superBlock]
    refine reached.avoid fun k rest => Volume.link_eq deleted.superBlock (deleted.kept k fun way => ?_)
    exact outside (way.trans rest)

/-- Without files nothing is left on the disc. -/
theorem all_free {size : UInt64} (h : Rooted v) (sane : Sane size v) (layout : v.superBlock.Layout)
    (free : ∀ i, v.isINodeFree i) : v = freshVolume size := by
  obtain ⟨superBlock, iNodes, dataBlocks⟩ := v
  have inodes : iNodes = fun _ => {} := funext fun i => sane.free layout (free i)
  have blocks : dataBlocks = fun _ => {} := by
    funext b
    by_contra nonempty
    obtain ⟨i, used, -⟩ := h b nonempty
    rw [free i] at used
    cases used
  obtain rfl : superBlock = initializeSuperBlock size := sane.superBlock
  rw [inodes, blocks]
  rfl

end Rooted

/-- RM takes one occurrence of the name out of what LS prints. -/
theorem Deleted.names_perm {v v' : Volume} {name : CString} {i : Nat} (h : Deleted v i v')
    (found : v.lookup name = some i) (used : v.isINodeFree i = false) : v.names.Perm (name :: v'.names) := by
  obtain ⟨inside, named, -⟩ := Volume.lookup_eq_some.1 found
  obtain ⟨l, hl⟩ : ∃ l, (List.range v.iNodeAmount).filter (fun j => !v.isINodeFree j) = l := ⟨_, rfl⟩
  have distinct : l.Nodup := hl ▸ List.nodup_range.filter _
  have mem : i ∈ l := by
    rw [← hl, List.mem_filter, List.mem_range, used]
    exact ⟨inside, rfl⟩
  have rest : (List.range v.iNodeAmount).filter (fun j => !Function.update v.isINodeFree i true j) = l.erase i := by
    rw [distinct.erase_eq_filter, ← hl, List.filter_filter]
    apply List.filter_congr
    intro j _
    by_cases same : j = i
    · subst same
      rw [Function.update_self, bne_self_eq_false]
      rfl
    · rw [Function.update_of_ne same, bne_iff_ne.2 same, Bool.true_and]
  have names : v'.names = (l.erase i).map v.nameAt := by
    unfold Volume.names
    rw [h.iNodeAmount, h.isINodeFree, rest, h.nameAt]
    apply List.map_congr_left
    intro j hj
    have ne : j ≠ i := fun same => distinct.not_mem_erase (same ▸ hj)
    rw [Function.update_of_ne ne]
  rw [names]
  unfold Volume.names
  rw [hl, ← named]
  exact (List.perm_cons_erase mem).map v.nameAt

/-- RM of each name. -/
def removals (names : List CString) : List (Command × Reply) := names.map fun name => (.rm name, .deleted)

/-- A command that loses no block. -/
def Lossless (disc : Disc) (e : Command × Reply) : Prop := HasRoom disc e ∧ TakesUnlinked disc e

variable {size : UInt64} {es : List (Command × Reply)} {disc : Disc} {names order : List CString}

theorem ReachedBy.rooted (h : ReachedBy Lossless size es disc) : Rooted disc.volume := by
  refine h.invariant And.left .fresh ?_
  intro es d e v' reached rooted ⟨room, takes⟩ effect
  cases effect with
  | refused => exact rooted
  | notFound => exact rooted
  | stored _ free enough stored =>
    have layout := reached.sane.layout reached.layout
    have first := newFirstBlock_ne_zero layout (le_trans (le_max_left 1 _) room)
    exact rooted.stored layout (Volume.freeINode_some free).2 first enough takes stored
  | deleted _ deleted => exact rooted.deleted deleted

/-- RM of all the names, in some order. -/
theorem Reached.remove_all (h : Reached size es disc) (rooted : Rooted disc.volume)
    (all : disc.volume.names.Perm order) :
    ∃ disc', Run Step disc (removals order) disc' ∧ disc'.volume = freshVolume size := by
  induction order generalizing es disc with
  | nil =>
    have layout := h.sane.layout h.layout
    refine ⟨disc, .nil disc, rooted.all_free h.sane layout fun i => ?_⟩
    by_contra used
    rw [Bool.not_eq_true] at used
    have inside : i < disc.volume.iNodeAmount := by
      by_contra outside
      unfold Volume.isINodeFree at used
      rw [Disc.iNodes_outside outside] at used
      cases used
    have listed := Volume.mem_names.2 ⟨i, inside, used, rfl⟩
    rw [all.eq_nil] at listed
    exact absurd listed List.not_mem_nil
  | cons name order ih =>
    have layout := h.sane.layout h.layout
    have listed : name ∈ disc.volume.names := all.mem_iff.2 List.mem_cons_self
    obtain ⟨i, found⟩ := h.sane.lookup_of_mem layout listed
    have used := h.sane.lookup_used layout (h.sane.nonempty_of_mem layout listed) found
    obtain ⟨disc₁, after, removed, deleted⟩ := h.delete found
    have rest : disc₁.volume.names.Perm order := ((deleted.names_perm found used).symm.trans all).cons_inv
    obtain ⟨disc', run, empty⟩ := ih after (rooted.deleted deleted) rest
    exact ⟨disc', run.cons removed, empty⟩

/-- **No block is lost**: on every disc that commands which take only unlinked blocks lead to, RM of all the
names that LS prints, in any order, gives the inodes and the data blocks that CREATE made. -/
theorem rm_all_frees (h : ReachedBy Lossless size es disc) (listed : showFiles disc = .ok names)
    (all : names.Perm order) :
    ∃ disc', Run Step disc (removals order) disc' ∧ disc'.volume = freshVolume size := by
  have reached := h.reached And.left
  obtain rfl : disc.volume.names = names :=
    Except.ok.inj ((showFiles_eq (reached.sane.layout reached.layout)).symm.trans listed)
  exact reached.remove_all h.rooted all

namespace TwoFiles

variable {file file' : HostFile} {disc disc' : Disc} {c c' : UInt8}

/-- What LS prints. -/
theorem names' (h : TwoFiles file file' disc disc') : disc'.volume.names = [nameA, nameB] := by
  have first : (freshVolume MIN_FILE_SYSTEM_SIZE).newFirstBlock ≠ 0 := by
    rw [smallest_newFirstBlock]
    exact h.before.layout.blockOffset_ne_zero smallest_pos
  have second := newFirstBlock_ne_zero h.layout (le_trans (le_max_left 1 _) h.room)
  have fresh : (freshVolume MIN_FILE_SYSTEM_SIZE).isINodeFree = fun _ => true := rfl
  have used : (List.range 128).filter (fun i =>
      !Function.update (Function.update (fun _ => true) 0 false) 1 false i) = [0, 1] := by
    decide
  unfold Volume.names
  rw [h.stored'.iNodeAmount, h.stored.iNodeAmount, smallest_iNodeAmount, h.stored'.isINodeFree second,
    h.stored.isINodeFree first, fresh, used, h.nameAt', h.nameAt]
  rfl

end TwoFiles

/-- RM of two files. -/
theorem rm_all_frees_letter : ∃ disc disc', showFiles disc = .ok [nameA, nameB] ∧
    Run Step disc (removals [nameB, nameA]) disc' ∧ disc'.volume = freshVolume MIN_FILE_SYSTEM_SIZE := by
  obtain ⟨new, d, disc, created, copied, two⟩ := @TwoFiles.copy (byteFile 1) (byteFile 2) (by decide) (by decide)
  obtain ⟨fits, new, created, run⟩ := two.careful (by decide) created copied
  have lossless : ReachedBy Lossless MIN_FILE_SYSTEM_SIZE _ disc :=
    ⟨fits, new, created, run.mono fun step => ⟨step.1, step.2.1, step.2.2.1⟩⟩
  have listed : showFiles disc = .ok [nameA, nameB] := two.names' ▸ showFiles_eq two.layout'
  obtain ⟨disc', removed, empty⟩ := rm_all_frees lossless listed (.swap nameB nameA [])
  exact ⟨disc, disc', listed, removed, empty⟩

/-- A block of zeros, and one byte more. -/
def zeros : HostFile where
  content := List.replicate BLOCK_SIZE 0 ++ [1]
  small := by
    rw [List.length_append, List.length_replicate]
    decide

/-- RM that clears only the block 0. -/
theorem Deleted.only_first {v v' : Volume} {i b : Nat} (h : Deleted v i v')
    (first : v.target (v.iNodes i).firstBlock = some 0) (last : ∀ k, v.link 0 = some k → k = 0) (other : b ≠ 0) :
    v'.dataBlocks b = v.dataBlocks b := by
  apply h.kept
  intro reached
  rw [first] at reached
  refine other (reached.closed (S := fun k => k = 0) ?_ ?_)
  · exact fun k same => (Option.some.inj same).symm
  · rintro _ k rfl next
    exact last k next

section Zeros

variable {disc disc' : Disc} {file' : HostFile}

theorem zeros_taken : (freshVolume MIN_FILE_SYSTEM_SIZE).taken zeros = [0, 1] := by
  have length : zeros.content.length = 1025 := by
    unfold zeros
    rw [List.length_append, List.length_replicate]
    rfl
  have two : chunks 1025 = 2 := by decide
  unfold Volume.taken
  rw [length, two, fresh_freeBlocks, List.take_range, smallest_blockAmount]
  rfl

/-- The first block of the zeros is free, although it is taken. -/
theorem zeros_head (two : TwoFiles zeros file' disc disc') : disc.volume.freeBlocks.head? = some 0 := by
  rw [Volume.head_freeBlocks, two.blockAmount]
  refine ⟨decide_eq_true fun c => ?_, by decide, fun j hj => absurd hj (Nat.not_lt_zero j)⟩
  have place : ((freshVolume MIN_FILE_SYSTEM_SIZE).taken zeros)[0]? = some 0 := by
    rw [zeros_taken]
    rfl
  have inside : c.1 < (List.replicate BLOCK_SIZE (0 : UInt8)).length := by
    rw [List.length_replicate]
    exact c.2
  rw [two.stored.chunk place, Nat.zero_mul, Nat.zero_add]
  unfold zeros
  rw [List.getD_append _ _ _ _ inside, List.getD_replicate _ c.2]

/-- The second block of the zeros is not empty. -/
theorem zeros_second (two : TwoFiles zeros file' disc disc') : disc.volume.dataBlocks 1 ≠ {} := by
  intro empty
  have place : ((freshVolume MIN_FILE_SYSTEM_SIZE).taken zeros)[1]? = some 1 := by
    rw [zeros_taken]
    rfl
  have outside : (List.replicate BLOCK_SIZE (0 : UInt8)).length ≤ 1 * BLOCK_SIZE + 0 := by
    rw [List.length_replicate]
    decide
  have chunk := two.stored.chunk place ⟨0, by decide⟩
  rw [empty] at chunk
  unfold zeros at chunk
  dsimp only at chunk
  rw [List.getD_append_right _ _ _ _ outside, List.length_replicate] at chunk
  exact absurd chunk (by decide)

end Zeros

/-- **COPYTO loses a block**: a file whose first block is all zero loses it to another file, and with it
the link to its second block. -/
theorem copy_leaks : ∃ disc disc', Reached MIN_FILE_SYSTEM_SIZE
      [(.copyTo nameA (some zeros), .copied), (.copyTo nameB (some (byteFile 1)), .copied)] disc ∧
    showFiles disc = .ok [nameA, nameB] ∧ Run Step disc (removals [nameA, nameB]) disc' ∧
    disc'.volume ≠ freshVolume MIN_FILE_SYSTEM_SIZE := by
  have length : zeros.content.length ≤ 949 * BLOCK_SIZE := by
    unfold zeros
    rw [List.length_append, List.length_replicate]
    decide
  obtain ⟨new, d, disc, -, -, two⟩ := @TwoFiles.copy zeros (byteFile 1) length (by decide)
  have blocks := two.dataBlocks' (zeros_head two)
  have layout := two.layout'
  have start : disc.volume.target (disc.volume.superBlock.blockOffset 0) = some 0 :=
    Volume.target_blockOffset layout (by rw [two.blockAmount']; decide)
  -- both files start at the block 0, which is linked to itself
  have firstA : disc.volume.target (disc.volume.iNodes 0).firstBlock = some 0 := by
    rw [two.inodeFirst]
    exact start
  have firstB : disc.volume.target (disc.volume.iNodes 1).firstBlock = some 0 := by
    rw [two.stored'.inode]
    show disc.volume.target d.volume.newFirstBlock = some 0
    unfold Volume.newFirstBlock
    rw [zeros_head two]
    rw [two.stored'.superBlock] at start
    exact SuperBlock.offsetFromIndex ▸ start
  have loop : disc.volume.link 0 = some 0 := by
    unfold Volume.link
    rw [blocks, Function.update_self, ← two.stored'.superBlock]
    exact start
  obtain ⟨disc₁, after, removedA, deletedA⟩ := two.after.delete two.lookupA'
  have foundB : disc₁.volume.lookup nameB = some 1 :=
    Volume.lookup_update two.lookupB' deletedA.iNodeAmount deletedA.nameAt (by decide) (by decide)
  obtain ⟨disc₂, -, removedB, deletedB⟩ := after.delete foundB
  have cleared : disc₁.volume.dataBlocks 0 = {} := by
    apply deletedA.cleared
    rw [firstA]
    exact .here 0
  refine ⟨disc, disc₂, two.after, two.names' ▸ showFiles_eq layout, .cons removedA (.single removedB), fun fresh => ?_⟩
  have lost : disc₂.volume.dataBlocks 1 = d.volume.dataBlocks 1 := by
    have keptA : disc₁.volume.dataBlocks 1 = disc.volume.dataBlocks 1 := by
      refine deletedA.only_first firstA (fun k next => ?_) (by decide)
      rw [loop] at next
      exact (Option.some.inj next).symm
    have keptB : disc₂.volume.dataBlocks 1 = disc₁.volume.dataBlocks 1 := by
      refine deletedB.only_first ?_ (fun k next => ?_) (by decide)
      · rw [Volume.target_eq deletedA.superBlock, deletedA.other (by decide)]
        exact firstB
      · rw [Volume.link_none (by rw [cleared])] at next
        cases next
    rw [keptB, keptA, blocks, Function.update_of_ne (by decide)]
  apply zeros_second two
  rw [← lost, fresh]
  rfl

end SoiExercises.Vfs
