import Mathlib.Data.List.Perm.Subperm
import SoiExercises.Vfs.Runs

/-!
# COPYTO is all or nothing

The space check of COPYTO counts a free block as the size of the structure, and its loop puts only the
data of a block into it. A file between the two is accepted, and the loop runs out of blocks.
`copy_all_or_nothing` is the exact condition on every disc that is reached without that, and without RM
of a file whose first block is none of the disc.
-/

namespace SoiExercises.Vfs

open SoiExercises.Lib

section

variable (disc : Disc) (name : CString) (file : HostFile)

/-- The file is rejected, and the disc stays as it is. -/
def Rejects : Prop := ∃ reply ≠ .copied, copyFileToSystem disc name (some file) = .ok (disc, reply)

/-- The file is copied: each chunk goes to a free block of its own, and nothing but these blocks and the
inode `i` is written. -/
structure Accepts (disc' : Disc) (i : Nat) (blocks : List Nat) : Prop where
  copied : copyFileToSystem disc name (some file) = .ok (disc', .copied)
  inode : i < disc.volume.iNodeAmount ∧ disc.volume.isINodeFree i
  distinct : blocks.Nodup
  free : ∀ b ∈ blocks, b < disc.volume.blockAmount ∧ disc.volume.isDataBlockFree b
  amount : blocks.length = chunks file.content.length
  chunk : ∀ (k : Nat) (hk : k < blocks.length) (c : Fin BLOCK_SIZE),
    (disc'.volume.dataBlocks blocks[k]).data c = file.content.getD (k * BLOCK_SIZE + c) 0
  others : ∀ p, ¬ disc.volume.superBlock.InINode i p →
    (∀ b ∈ blocks, ¬ disc.volume.superBlock.InBlock b p) → disc' p = disc p

def AllOrNothing : Prop := Rejects disc name file ∨ ∃ disc' i blocks, Accepts disc name file disc' i blocks

end

variable {size : UInt64} {disc : Disc} {name : CString} {file : HostFile}

theorem chunks_le_iff {n m : Nat} : chunks n ≤ m ↔ n ≤ m * BLOCK_SIZE := by
  unfold chunks BLOCK_SIZE
  omega

/-- A file that is copied as it should be has no more chunks than there are free blocks. -/
theorem Accepts.enough {disc' : Disc} {i : Nat} {blocks : List Nat} (h : Accepts disc name file disc' i blocks) :
    chunks file.content.length ≤ disc.volume.freeBlocks.length := by
  have inside : blocks ⊆ disc.volume.freeBlocks := fun b hb => Volume.mem_freeBlocks.2 (h.free b hb)
  rw [← h.amount]
  exact (h.distinct.subperm inside).length_le

theorem accepts (layout : disc.volume.superBlock.Layout) (admitted : ¬ disc.volume.Refuses name file)
    (enough : chunks file.content.length ≤ disc.volume.freeBlocks.length) :
    ∃ disc' i, Accepts disc name file disc' i (disc.volume.taken file) := by
  obtain ⟨disc', i, done, free, stored, writes⟩ := copyFileToSystem_spec layout admitted enough
  refine ⟨disc', i, done, Volume.freeINode_some free, Stored.nodup_taken, fun b => Stored.mem_taken, ?_, ?_, writes⟩
  · exact List.length_take_of_le enough
  · exact fun k hk => stored.chunk (List.getElem?_eq_getElem hk)

/-- COPYTO on a disc of the right layout. -/
theorem allOrNothing_iff (layout : disc.volume.superBlock.Layout) :
    AllOrNothing disc name file ↔
      disc.volume.Refuses name file ∨ file.content.length ≤ disc.volume.freeBlocks.length * BLOCK_SIZE := by
  rw [← chunks_le_iff]
  constructor
  · rintro (⟨reply, no, done⟩ | ⟨disc', i, blocks, accepted⟩)
    · left
      by_contra admitted
      obtain ⟨i, -, stored⟩ := copyFileToSystem_admitted layout admitted
      rw [stored] at done
      obtain ⟨r, -, last⟩ := bind_eq_ok.1 done
      exact no (Prod.mk.inj (Except.ok.inj last)).2.symm
    · exact .inr accepted.enough
  · intro condition
    by_cases refused : disc.volume.Refuses name file
    · exact .inl (copyFileToSystem_refused layout refused)
    · obtain ⟨disc', i, accepted⟩ := accepts layout refused (condition.resolve_left refused)
      exact .inr ⟨disc', i, _, accepted⟩

/-- A disc on which the commands stay in the data blocks. -/
structure Sound (size : UInt64) (disc : Disc) : Prop where
  superBlock : disc.volume.superBlock = initializeSuperBlock size
  linked : disc.volume.Linked

theorem Sound.step {disc' : Disc} {e : Command × Reply} (layout : (initializeSuperBlock size).Layout)
    (h : Sound size disc) (step : Guarded Step Admissible disc e disc') : Sound size disc' := by
  have layout : disc.volume.superBlock.Layout := h.superBlock ▸ layout
  have effect := step_effect layout h.linked step.2 step.1
  generalize hv : disc'.volume = v' at effect
  obtain ⟨super, linked⟩ : v'.superBlock = disc.volume.superBlock ∧ v'.Linked := by
    cases effect with
    | refused => exact ⟨rfl, h.linked⟩
    | notFound => exact ⟨rfl, h.linked⟩
    | stored _ _ _ stored => exact ⟨stored.superBlock, stored.linked layout h.linked⟩
    | deleted _ deleted => exact ⟨deleted.superBlock, deleted.linked h.linked⟩
  subst hv
  exact ⟨super.trans h.superBlock, linked⟩

/-- **COPYTO is all or nothing exactly when** it refuses the file or the free blocks hold its contents, on
every disc that commands which stay in the data blocks make of a new one. -/
theorem copy_all_or_nothing {new : Disc} {es : List (Command × Reply)}
    (fits : (initializeSuperBlock size).blockAmount.toNat ≤ INT_MAX) (created : createSystem size = some new)
    (run : Run (Guarded Step Admissible) new es disc) :
    AllOrNothing disc name file ↔
      disc.volume.Refuses name file ∨ file.content.length ≤ disc.volume.freeBlocks.length * BLOCK_SIZE := by
  obtain ⟨fresh, layout⟩ := volume_createSystem fits created
  have sane : Sane size new.volume := fresh ▸ Reached.fresh_sane
  have start : Sound size new := ⟨sane.superBlock, sane.linked⟩
  have sound : Sound size disc := run.invariant (Sound.step layout) start
  have layout : disc.volume.superBlock.Layout := sound.superBlock ▸ layout
  exact allOrNothing_iff layout

/-- The file of `n` bytes 1. -/
def ones (n : Nat) (small : n < 2 ^ 63) : HostFile where
  content := List.replicate n 1
  small := by rwa [List.length_replicate]

/-- COPYTO and RM of a file of one byte leave the smallest disc as it was. -/
theorem smallest_emptied : ∃ new disc, createSystem MIN_FILE_SYSTEM_SIZE = some new ∧
    Run (Guarded Step Admissible) new [(.copyTo nameA (some (byteFile 1)), .copied), (.rm nameA, .deleted)] disc ∧
    disc.volume = freshVolume MIN_FILE_SYSTEM_SIZE := by
  obtain ⟨new, d, created, copied, reached, stored⟩ := @smallest_copy nameA (byteFile 1) (by decide) (by decide)
  have layout := reached.sane.layout reached.layout
  have amount : d.volume.blockAmount = 950 := stored.blockAmount.trans smallest_blockAmount
  have taken : (freshVolume MIN_FILE_SYSTEM_SIZE).taken (byteFile 1) = [0] := by
    unfold Volume.taken
    rw [chunks_byteFile, List.take_one, smallest_head]
    rfl
  have first : (d.volume.iNodes 0).firstBlock = d.volume.superBlock.blockOffset 0 := by
    rw [stored.inode, stored.superBlock]
    exact smallest_newFirstBlock
  have found : d.volume.lookup nameA = some 0 := by
    unfold Volume.lookup
    rw [stored.iNodeAmount, smallest_iNodeAmount]
    refine List.find?_cons_of_pos (l := List.range' 1 127) ?_
    rw [stored.inode]
    exact decide_eq_true cString_fileNameField
  have linkable : d.volume.Linkable (d.volume.iNodes 0).firstBlock := .inr ⟨0, by omega, first⟩
  obtain ⟨disc, removed, deleted, -⟩ := deleteFile_spec layout reached.sane.linked found linkable
  have storing : Guarded Step Admissible new (.copyTo nameA (some (byteFile 1)), .copied) d := by
    refine ⟨copied, ?_⟩
    show chunks 1 ≤ new.volume.freeBlocks.length
    rw [(volume_createSystem smallest_fits created).1, fresh_freeBlocks, List.length_range, smallest_blockAmount]
    decide
  have removing : Guarded Step Admissible d (.rm nameA, .deleted) disc := by
    refine ⟨removed, fun i same => ?_⟩
    obtain rfl : 0 = i := Option.some.inj (found.symm.trans same)
    exact linkable
  have owned : ∀ k ∈ (freshVolume MIN_FILE_SYSTEM_SIZE).taken (byteFile 1),
      Reach d.volume.link (d.volume.target (d.volume.iNodes 0).firstBlock) k := by
    intro k member
    rw [taken, List.mem_singleton] at member
    rw [member, first, Volume.target_blockOffset layout (by omega)]
    exact .here 0
  exact ⟨new, disc, created, ((Run.nil new).snoc storing).snoc removing, stored.undone deleted rfl owned fun _ _ => rfl⟩

/-- A file that fills the smallest disc, after COPYTO and RM of another one. -/
theorem copy_all_or_nothing_refilled : ∃ new disc, createSystem MIN_FILE_SYSTEM_SIZE = some new ∧
    Run (Guarded Step Admissible) new [(.copyTo nameA (some (byteFile 1)), .copied), (.rm nameA, .deleted)] disc ∧
    ¬ disc.volume.Refuses nameB (ones 972800 (by decide)) ∧ AllOrNothing disc nameB (ones 972800 (by decide)) := by
  obtain ⟨new, disc, created, run, fresh⟩ := smallest_emptied
  have size : (ones 972800 (by decide)).content.length = 972800 := List.length_replicate
  have free : disc.volume.freeBlocks.length = 950 := by
    rw [fresh, fresh_freeBlocks, List.length_range, smallest_blockAmount]
  refine ⟨new, disc, created, run, ?_, (copy_all_or_nothing smallest_fits created run).2 (.inr ?_)⟩
  · unfold Volume.Refuses
    rw [size, free, fresh, fresh_lookup (by decide), fresh_freeINode (by rw [smallest_iNodeAmount]; decide)]
    simp
  · rw [free, size]
    decide

/-- A file of 972801 bytes is more than the 950 blocks of the smallest disc hold, and is accepted. -/
theorem copy_overruns : ∃ new, createSystem MIN_FILE_SYSTEM_SIZE = some new ∧
    ¬ AllOrNothing new nameA (ones 972801 (by decide)) := by
  obtain ⟨new, created, fresh, reached⟩ := smallest
  have layout := reached.sane.layout reached.layout
  refine ⟨new, created, ?_⟩
  have size : (ones 972801 (by decide)).content.length = 972801 := List.length_replicate
  rw [allOrNothing_iff layout, fresh, not_or]
  unfold Volume.Refuses
  rw [size, fresh_freeBlocks, List.length_range, smallest_blockAmount, fresh_lookup (by decide),
    fresh_freeINode (by rw [smallest_iNodeAmount]; decide)]
  unfold BLOCK_SIZE
  simp

end SoiExercises.Vfs
