import SoiExercises.Vfs.Chains

/-!
# How long RM takes

The links of a disc need not be those of a run: blocks may be shared, and chains may run into themselves. Each time
round, the loop of `deleteFile` erases the link that it follows (`Clears.clearing`), so it comes back to at most one
block, and ends there.
-/

namespace SoiExercises.Vfs

open SoiExercises.Lib

/-- The loop of `deleteFile` goes `n` times round from `disc` and `v` to `disc'` and `v'`. -/
inductive Clears : Nat → Disc → Volume → UInt64 → Disc → Volume → Prop
  | stop {disc : Disc} {v : Volume} : Clears 0 disc v 0 disc v
  | clear {n i : Nat} {disc disc' : Disc} {v v' : Volume} {off : UInt64} : off ≠ 0 →
      v.checkIndex (v.superBlock.calculateDataBlockIndexFromOffset off) = .ok i →
      Clears n (disc.writeBlock off {}) (v.setBlock i {}) (v.dataBlocks i).nextBlock disc' v' →
      Clears (n + 1) disc v off disc' v'

section Loop

variable {n : Nat} {disc disc' : Disc} {v v' : Volume} {off : UInt64}

/-- **The rounds are those of the loop.** -/
theorem clearBlocks_iff : clearBlocks disc v off = .ok (disc', v') ↔ ∃ n, Clears n disc v off disc' v' := by
  constructor
  · intro done
    induction disc, v, off using clearBlocks.induct with
    | case1 disc v =>
      rw [clearBlocks_zero] at done
      cases done
      exact ⟨0, .stop⟩
    | case2 disc v off more fault checked =>
      rw [clearBlocks_fault more checked] at done
      cases done
    | case3 disc v off more current checked ih =>
      rw [clearBlocks_clear more checked] at done
      obtain ⟨n, rounds⟩ := ih done
      exact ⟨n + 1, .clear more checked rounds⟩
  · rintro ⟨n, rounds⟩
    induction rounds with
    | stop => exact clearBlocks_zero
    | clear more checked _ ih =>
      rw [clearBlocks_clear more checked]
      exact ih

/-- Each round clears a block of the chain and goes on from there. -/
theorem Clears.clearing (rounds : Clears n disc v off disc' v') : Clearing v.link (v.target off) n := by
  induction rounds with
  | stop =>
    rw [Volume.target_zero]
    exact .stop
  | @clear n i disc disc' v v' off more checked _ ih =>
    have here : v.target off = some i := by
      unfold Volume.target
      rw [if_neg more, checked]
      rfl
    rw [Volume.link_setBlock, Volume.target_zero, Volume.target_setBlock] at ih
    rw [here]
    exact .clear ih

end Loop

/-- The blocks that the links from the first block of inode `i` lead to. -/
def Volume.reachable (v : Volume) (i : Nat) : Set Nat := {k | Reach v.link (v.target (v.iNodes i).firstBlock) k}

theorem Volume.reachable_finite {v : Volume} {i : Nat} : (v.reachable i).Finite := by
  refine (Finset.range v.blockAmount).finite_toSet.subset fun k reached => Finset.mem_coe.2 (Finset.mem_range.2 ?_)
  refine Reach.closed (S := (· < v.blockAmount)) ?_ ?_ reached
  · exact fun j start => Volume.target_lt start
  · exact fun j k _ linked => Volume.target_lt linked

/-- `disc'` is what RM of `name`, the file of inode `i`, makes of `disc`, and `v'` is the volume in memory then. -/
structure Removes (disc : Disc) (name : CString) (i : Nat) (disc' : Disc) (v' : Volume) : Prop where
  done : deleteFile disc name = .ok (disc', .deleted)
  memory : deleteINode disc disc.volume i = .ok (disc', v')
  rounds : ∃ n cleared w, Clears n disc disc.volume (disc.volume.iNodes i).firstBlock cleared w ∧
    n ≤ (disc.volume.reachable i).ncard + 1
  cleared : ∀ k ∈ disc.volume.reachable i, v'.dataBlocks k = {}
  kept : ∀ k, k ∉ disc.volume.reachable i → v'.dataBlocks k = disc.volume.dataBlocks k
  free : v'.isINodeFree i
  iNodes : ∀ k, k ≠ i → v'.iNodes k = disc.volume.iNodes k
  loaded : disc'.volume = v'
  bytes : OnlyClears disc i disc'

/-- **RM terminates and clears what its file reaches**, on any disc of the layout of CREATE whose links are offsets
of blocks or 0. -/
theorem rm_clears_reachable {disc : Disc} {name : CString} {i : Nat} (layout : disc.volume.superBlock.Layout)
    (firsts : ∀ k < disc.volume.iNodeAmount, disc.volume.Linkable (disc.volume.iNodes k).firstBlock)
    (linked : disc.volume.Linked) (found : disc.volume.getINodeIndex name = .ok (some i)) :
    ∃ disc' v', Removes disc name i disc' v' := by
  rw [Volume.getINodeIndex_eq layout] at found
  have found := Except.ok.inj found
  have inside := (Volume.lookup_some found).1
  obtain ⟨disc', v', done, loaded, deleted, bytes⟩ := deleteINode_spec layout linked inside (firsts i inside)
  obtain ⟨⟨cleared, w⟩, looped, -⟩ := bind_eq_ok.1 done
  obtain ⟨n, rounds⟩ := clearBlocks_iff.1 looped
  refine ⟨disc', v', deleteFile_eq layout found done, done, ⟨n, cleared, w, rounds, ?_⟩, deleted.cleared, deleted.kept,
    ?_, fun k ne => deleted.other ne, loaded, bytes⟩
  · exact rounds.clearing.length_le Volume.reachable_finite
  · unfold Volume.isINodeFree
    rw [deleted.inode]
    rfl

/-- RM of the second of two files, which goes on from its block to that of the first file, and from there to itself. -/
theorem rm_clears_reachable_second : ∃ disc disc' v', Reached MIN_FILE_SYSTEM_SIZE
      [(.copyTo nameA (some (byteFile 1)), .copied), (.copyTo nameB (some (byteFile 2)), .copied)] disc ∧
    Removes disc nameB 1 disc' v' := by
  obtain ⟨new, d, disc, -, -, two⟩ := @TwoFiles.copy (byteFile 1) (byteFile 2) (by decide) (by decide)
  have sane := two.after.sane
  have firsts : ∀ k < disc.volume.iNodeAmount, disc.volume.Linkable (disc.volume.iNodes k).firstBlock := by
    intro k _
    rcases sane.slots k with empty | ⟨first, -⟩
    · rw [empty]
      exact .inl rfl
    · exact .inr first
  have found : disc.volume.getINodeIndex nameB = .ok (some 1) := by
    rw [Volume.getINodeIndex_eq two.layout', two.lookupB']
  obtain ⟨disc', v', removes⟩ := rm_clears_reachable two.layout' firsts sane.linked found
  exact ⟨disc, disc', v', two.after, removes⟩

end SoiExercises.Vfs
