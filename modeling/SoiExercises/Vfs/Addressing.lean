import SoiExercises.Vfs.Capacity
import SoiExercises.Vfs.Chains

/-!
# Offsets and indices

An offset that one command stores is trusted by the next ones. An empty file that is copied to a full disc
gets the offset of the index -1 as its first block, and a link that RM has cleared stands for the super
block when COPYFROM goes on from it. In every run without the two, every index is in the range of the data
blocks, where it would be a `Fault` otherwise, and only the chosen records are written
(`addresses_stay_inside`). That a file which is overwritten in part can still be read to its size rests on
the block 0: as long as it is linked, its links lead back to it (`Followed.home`).
-/

namespace SoiExercises.Vfs

open SoiExercises.Lib

/-- RM clears no block of another file that is linked to its next one. -/
def KeepsLinks (disc : Disc) : Command × Reply → Prop
  | (.rm name, .deleted) => ∀ i, disc.volume.lookup name = some i →
      ∀ b, Reach disc.volume.link (disc.volume.target (disc.volume.iNodes i).firstBlock) b →
      ∀ j ≠ i, disc.volume.HasBlocks j → b ∉ (disc.volume.fileBlocks j).dropLast
  | _ => True

/-- The links of each file lead on for its size. -/
structure Followed (v : Volume) : Prop where
  unlinked : ∀ b, (v.dataBlocks b).nextBlock = 0 → v.isDataBlockFree b
  home : (v.dataBlocks 0).nextBlock ≠ 0 → Reach v.link (v.link 0) 0
  long : ∀ i, v.HasBlocks i → Long v.link (chunks (v.iNodes i).fileSize.toNat) (v.target (v.iNodes i).firstBlock)

namespace Followed

variable {v v' : Volume} {name : CString} {file : HostFile} {i b : Nat}

theorem fresh {size : UInt64} : Followed (freshVolume size) where
  unlinked := fun _ _ => decide_eq_true fun _ => rfl
  home := fun linked => absurd rfl linked
  long := fun _ more => absurd rfl more

/-- A block that COPYTO takes is linked. -/
theorem taken_linked (layout : v.superBlock.Layout) (stored : Stored v name file i v') (taken : b ∈ v.taken file) :
    (v'.dataBlocks b).nextBlock ≠ 0 := by
  obtain ⟨n, hn, rfl⟩ := List.mem_iff_getElem.1 taken
  rw [stored.dataBlocks, storeChain_getElem Stored.nodup_taken hn]
  refine layout.blockOffset_ne_zero ?_
  by_cases last : n + 1 < (v.taken file).length
  · rw [List.getD_eq_getElem _ _ last]
    exact (Stored.mem_taken (List.getElem_mem last)).1
  · rw [List.getD_eq_default _ _ (by omega)]
    exact layout.nonempty

/-- **COPYTO keeps the files readable**, whatever blocks it takes. -/
theorem stored (h : Followed v) (layout : v.superBlock.Layout)
    (room : chunks file.content.length ≤ v.freeBlocks.length) (stored : Stored v name file i v') : Followed v' := by
  have kept : ∀ b, b ∉ v.taken file → v'.link b = v.link b :=
    fun b untaken => Volume.link_eq stored.superBlock (stored.outside untaken)
  have old : ∀ k, k ≠ i → v'.HasBlocks k →
      Long v.link (chunks (v'.iNodes k).fileSize.toNat) (v'.target (v'.iNodes k).firstBlock) := by
    intro k ne used
    rw [Volume.hasBlocks_congr (stored.other ne)] at used
    rw [stored.other ne, Volume.target_eq stored.superBlock]
    exact h.long k used
  have unlinked : ∀ b, (v'.dataBlocks b).nextBlock = 0 → v'.isDataBlockFree b := by
    intro b none
    have untaken : b ∉ v.taken file := fun taken => taken_linked layout stored taken none
    unfold Volume.isDataBlockFree
    rw [stored.outside untaken] at none ⊢
    exact h.unlinked b none
  by_cases more : file.content = []
  · -- no block is taken
    have taken : v.taken file = [] := by
      unfold Volume.taken
      rw [more]
      rfl
    have same : v'.link = v.link := by
      funext b
      exact kept b (taken ▸ List.not_mem_nil)
    refine ⟨unlinked, ?_, fun k used => ?_⟩
    · rw [same, stored.outside (taken ▸ List.not_mem_nil)]
      exact h.home
    · have ne : k ≠ i := by
        rintro rfl
        exact stored.hasBlocks.1 used more
      rw [same]
      exact old k ne used
  · have seg := stored.seg layout more room
    have leads : ∀ b, v'.link b = v.link b ∨ Reach v'.link (v'.link b) 0 := by
      intro b
      by_cases taken : b ∈ v.taken file
      · exact .inr (seg.leads taken)
      · exact .inl (kept b taken)
    have home : Reach v'.link (v'.link 0) 0 := by
      by_cases taken : 0 ∈ v.taken file
      · exact seg.leads taken
      · rw [kept 0 taken]
        refine (h.home fun none => taken ?_).redirect leads
        -- the free block 0 would be the first one that is taken
        have head := Volume.head_freeBlocks.2 ⟨h.unlinked 0 none, layout.nonempty, fun j hj => absurd hj (Nat.not_lt_zero j)⟩
        rw [← Volume.head_taken more] at head
        exact List.mem_of_head? head
    refine ⟨unlinked, fun _ => home, fun k used => ?_⟩
    by_cases same : k = i
    · subst same
      have length : (v.taken file).length = chunks file.content.length := List.length_take_of_le room
      rw [stored.inode, newINode_fileSize, ← length]
      exact seg.long
    · refine (old k same used).redirect fun b => ?_
      rcases leads b with kept | leads
      · exact .inl kept
      · exact .inr fun m => home.long leads

/-- **RM keeps the files readable** if it clears no block of another file that is linked to its next one. -/
theorem deleted (h : Followed v) (deleted : Deleted v i v')
    (apart : ∀ b, Reach v.link (v.target (v.iNodes i).firstBlock) b → ∀ j ≠ i, v.HasBlocks j →
      b ∉ (v.fileBlocks j).dropLast) : Followed v' := by
  have kept : ∀ b, ¬ Reach v.link (v.target (v.iNodes i).firstBlock) b → v'.link b = v.link b :=
    fun b outside => Volume.link_eq deleted.superBlock (deleted.kept b outside)
  refine ⟨fun b none => ?_, fun linked => ?_, fun k used => ?_⟩
  · unfold Volume.isDataBlockFree
    by_cases reached : Reach v.link (v.target (v.iNodes i).firstBlock) b
    · rw [deleted.cleared b reached]
      exact decide_eq_true fun _ => rfl
    · rw [deleted.kept b reached] at none ⊢
      exact h.unlinked b none
  · have outside : ¬ Reach v.link (v.target (v.iNodes i).firstBlock) 0 := by
      intro reached
      rw [deleted.cleared 0 reached] at linked
      exact linked rfl
    rw [deleted.kept 0 outside] at linked
    rw [kept 0 outside]
    exact (h.home linked).avoid fun b rest => kept b fun reached => outside (reached.trans rest)
  · have ne : k ≠ i := by
      rintro rfl
      unfold Volume.HasBlocks at used
      rw [deleted.inode] at used
      exact used rfl
    rw [Volume.hasBlocks_congr (deleted.other ne)] at used
    rw [deleted.other ne, Volume.target_eq deleted.superBlock]
    refine (h.long k used).congr fun b hb => kept b fun reached => apart b reached k ne used ?_
    unfold Volume.fileBlocks
    rw [Volume.follow_readLink (h.long k used)]
    exact hb

end Followed

/-- On the disc every offset is one of a block, every index is in range, and every command writes only the
inode that it chooses and blocks that it takes or clears. -/
structure Addressed (disc : Disc) : Prop where
  first : ∀ i, disc.volume.isINodeFree i = false →
    ∃ b < disc.volume.blockAmount, (disc.volume.iNodes i).firstBlock = disc.volume.superBlock.blockOffset b
  copyFrom : ∀ name ∈ disc.volume.names, ∃ content, copyFileFromSystem disc name = .ok (some content)
  rm : ∀ name ∈ disc.volume.names, ∃ disc' i, deleteFile disc name = .ok (disc', .deleted) ∧
    disc.volume.lookup name = some i ∧ OnlyClears disc i disc' ∧
    ∀ b, Reach disc.volume.link (disc.volume.target (disc.volume.iNodes i).firstBlock) b → b < disc.volume.blockAmount
  copyTo : ∀ name file, chunks file.content.length ≤ disc.volume.freeBlocks.length →
    ∃ disc' reply, copyFileToSystem disc name (some file) = .ok (disc', reply) ∧
      (disc' = disc ∨ ∃ i, disc.volume.freeINode = some i ∧ OnlyWrites disc file i disc' ∧
        ∀ b ∈ disc.volume.taken file, b < disc.volume.blockAmount)

/-- A command that stays in the data region. -/
def Contained (disc : Disc) (e : Command × Reply) : Prop := HasRoom disc e ∧ KeepsLinks disc e

variable {size : UInt64} {es : List (Command × Reply)} {disc : Disc}

theorem ReachedBy.followed (h : ReachedBy Contained size es disc) : Followed disc.volume := by
  refine h.invariant And.left .fresh ?_
  intro es d e v' reached followed ⟨_, keeps⟩ effect
  cases effect with
  | refused => exact followed
  | notFound => exact followed
  | stored _ free enough stored =>
    exact followed.stored (reached.sane.layout reached.layout) enough stored
  | deleted found deleted => exact followed.deleted deleted (keeps _ found)

/-- **Block addressing stays in the data region** in every run in which each empty file is copied to a disc
with a free block, and RM clears no block of another file that is linked to its next one. -/
theorem addresses_stay_inside (h : ReachedBy Contained size es disc) : Addressed disc := by
  have reached := h.reached And.left
  have followed := h.followed
  have layout := reached.sane.layout reached.layout
  have linkable : ∀ i, disc.volume.Linkable (disc.volume.iNodes i).firstBlock := by
    intro i
    rcases reached.sane.slots i with empty | ⟨first, -⟩
    · rw [empty]
      exact .inl rfl
    · exact .inr first
  refine ⟨fun i used => ?_, fun name listed => ?_, fun name listed => ?_, fun name file enough => ?_⟩
  · rcases reached.sane.slots i with empty | ⟨first, -⟩
    · unfold Volume.isINodeFree at used
      rw [empty] at used
      cases used
    · exact first
  · obtain ⟨i, found⟩ := reached.sane.lookup_of_mem layout listed
    exact copyFileFromSystem_total layout found (followed.long i)
  · obtain ⟨i, found⟩ := reached.sane.lookup_of_mem layout listed
    obtain ⟨disc', done, -, clears⟩ := deleteFile_spec layout reached.sane.linked found (linkable i)
    refine ⟨disc', i, done, found, clears, fun b way => ?_⟩
    exact way.closed (S := (· < disc.volume.blockAmount)) (fun j first => Volume.target_lt first) fun j k _ next => Volume.target_lt next
  · by_cases refused : disc.volume.Refuses name file
    · obtain ⟨reply, -, done⟩ := copyFileToSystem_refused layout refused
      exact ⟨disc, reply, done, .inl rfl⟩
    · obtain ⟨disc', i, done, free, -, writes⟩ := copyFileToSystem_spec layout refused enough
      exact ⟨disc', .copied, done, .inr ⟨i, free, writes, fun b taken => (Stored.mem_taken taken).1⟩⟩

/-- Two files on the smallest disc. -/
theorem addresses_stay_inside_letter : ∃ disc,
    Reached MIN_FILE_SYSTEM_SIZE
      [(.copyTo nameA (some (byteFile 1)), .copied), (.copyTo nameB (some (byteFile 2)), .copied)] disc ∧
    Addressed disc := by
  obtain ⟨new, d, disc, created, copied, two⟩ := @TwoFiles.copy (byteFile 1) (byteFile 2) (by decide) (by decide)
  have first : Guarded Step Contained new (.copyTo nameA (some (byteFile 1)), .copied) d :=
    ⟨copied, TwoFiles.firstRoom created, trivial⟩
  have second : Guarded Step Contained d (.copyTo nameB (some (byteFile 2)), .copied) disc :=
    ⟨two.copied, two.room, trivial⟩
  have contained : ReachedBy Contained MIN_FILE_SYSTEM_SIZE _ disc :=
    ⟨smallest_fits, new, created, ((Run.nil new).snoc first).snoc second⟩
  exact ⟨disc, two.after, addresses_stay_inside contained⟩

/-- The empty file. -/
def emptyFile : HostFile where
  content := []
  small := by decide

/-- A file of 950 blocks fills the smallest disc. -/
theorem smallest_full {v : Volume}
    (stored : Stored (freshVolume MIN_FILE_SYSTEM_SIZE) nameA (ones 972800 (by decide)) 0 v) : v.freeBlocks = [] := by
  have length : (ones 972800 (by decide)).content.length = 972800 := List.length_replicate
  have all : chunks 972800 = 950 := by decide
  have taken : (freshVolume MIN_FILE_SYSTEM_SIZE).taken (ones 972800 (by decide)) = List.range 950 := by
    unfold Volume.taken
    rw [length, all, fresh_freeBlocks, smallest_blockAmount]
    exact List.take_of_length_le (by rw [List.length_range])
  unfold Volume.freeBlocks
  rw [List.filter_eq_nil_iff]
  intro b hb free
  rw [stored.blockAmount, smallest_blockAmount, List.mem_range] at hb
  have place : ((freshVolume MIN_FILE_SYSTEM_SIZE).taken (ones 972800 (by decide)))[b]? = some b := by
    rw [taken, List.getElem?_range hb]
  have inside : b * BLOCK_SIZE + 0 < 972800 := by
    unfold BLOCK_SIZE
    omega
  have zero := of_decide_eq_true free ⟨0, by decide⟩
  rw [stored.chunk place] at zero
  unfold ones at zero
  dsimp only at zero
  rw [List.getD_replicate _ inside] at zero
  exact absurd zero (by decide)

/-- **An empty file on a full disc** has a first block in front of the data region. -/
theorem empty_file_outside : ∃ disc disc', Reached MIN_FILE_SYSTEM_SIZE
      [(.copyTo nameA (some (ones 972800 (by decide))), .copied)] disc ∧
    chunks emptyFile.content.length ≤ disc.volume.freeBlocks.length ∧
    copyFileToSystem disc nameB (some emptyFile) = .ok (disc', .copied) ∧ ¬ Addressed disc' := by
  have length : (ones 972800 (by decide)).content.length = 972800 := List.length_replicate
  obtain ⟨new, disc, -, -, reached, stored⟩ := @smallest_copy nameA (ones 972800 (by decide)) (by decide)
    (by rw [length]; decide)
  have layout := reached.sane.layout reached.layout
  have full := smallest_full stored
  obtain ⟨free, vacant⟩ := second_slot stored reached.layout
  have admitted : ¬ disc.volume.Refuses nameB emptyFile := by
    unfold Volume.Refuses
    rw [free, vacant]
    simp [emptyFile]
  obtain ⟨disc', i, copied, slot, stored', -⟩ := copyFileToSystem_spec layout admitted (Nat.zero_le _)
  refine ⟨disc, disc', reached, Nat.zero_le _, copied, fun addressed => ?_⟩
  obtain rfl : 1 = i := Option.some.inj (free.symm.trans slot)
  have offset : disc.volume.newFirstBlock = 66600 := by
    unfold Volume.newFirstBlock
    rw [full, reached.sane.superBlock]
    decide
  have inode : disc'.volume.iNodes 1 = newINode nameB emptyFile 66600 := by
    rw [stored'.inode, offset]
  have used : disc'.volume.isINodeFree 1 = false := by
    unfold Volume.isINodeFree
    rw [inode]
    rfl
  obtain ⟨b, hb, first⟩ := addressed.first 1 used
  have place := layout.blockOffset (stored'.blockAmount ▸ hb)
  have amount : disc.volume.superBlock.iNodeAmount.toNat = 128 := stored.iNodeAmount.trans smallest_iNodeAmount
  rw [← stored'.superBlock, ← first, inode, stored'.superBlock, amount] at place
  have below : (newINode nameB emptyFile 66600).firstBlock.toNat = 66600 := rfl
  omega

end SoiExercises.Vfs
